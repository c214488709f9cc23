import RemoteDeck.Lib.Stream
import RemoteDeck.Lib.Text

/-! # Terminal output

    `TerminalEventStream` of `session.rs`: the events of one generation of a
    terminal, of which the last ones are kept for browsers that attach.
    Snapshots in events are left out; the broadcast channel is part of the
    state of those who receive from it.
-/

namespace Terminal

open Stream (Consecutive Forward reach)

def MAX_TERMINAL_REPLAY_BYTES : Nat := 1048576
def TERMINAL_BROADCAST_BUFFER : Nat := 512
def MAX_U64 : Nat := 18446744073709551615
def MAX_USIZE : Nat := 18446744073709551615

/-! ### Events -/

inductive TerminalEventKind where
  | started
  | output
  | replay_truncated
  | exit
  | error
  | state
  deriving DecidableEq, Repr

structure TerminalEvent where
  session_id : Text
  kind : TerminalEventKind
  data : Option Text
  exit_code : Option Int
  message : Option Text
  deriving DecidableEq, Repr

structure SequencedTerminalEvent where
  sequence : Nat
  generation : Nat
  event : TerminalEvent
  deriving DecidableEq, Repr

def replay_event_bytes (event : TerminalEvent) : Nat := event.data.elim 0 Text.len

/-! ### The stream -/

structure TerminalEventStream where
  replay : List SequencedTerminalEvent
  replay_bytes : Nat
  next_sequence : Nat
  dropped_through : Option Nat
  deriving DecidableEq, Repr

def TerminalEventStream.new : TerminalEventStream where
  replay := []
  replay_bytes := 0
  next_sequence := 0
  dropped_through := none

/-- Drop the oldest events while there are too many bytes. -/
def TerminalEventStream.evict (stream : TerminalEventStream) :
    List SequencedTerminalEvent → Nat → Option Nat → TerminalEventStream
  | [], bytes, dropped =>
      { stream with
        replay := []
        replay_bytes := if bytes > MAX_TERMINAL_REPLAY_BYTES then 0 else bytes
        dropped_through := dropped }
  | removed :: rest, bytes, dropped =>
      if bytes > MAX_TERMINAL_REPLAY_BYTES then
        stream.evict rest (bytes - replay_event_bytes removed.event) (some removed.sequence)
      else
        { stream with replay := removed :: rest, replay_bytes := bytes, dropped_through := dropped }

/-- `publish`: the stream and the event that is sent. -/
def TerminalEventStream.publish (stream : TerminalEventStream) (generation : Nat)
    (event : TerminalEvent) : TerminalEventStream × SequencedTerminalEvent :=
  let sequence := max ((stream.next_sequence + 1) % (MAX_U64 + 1)) 1
  let sequenced : SequencedTerminalEvent :=
    { sequence := sequence, generation := generation, event := event }
  ({ stream with next_sequence := sequence }.evict (stream.replay ++ [sequenced])
    (min (stream.replay_bytes + replay_event_bytes event) MAX_USIZE) stream.dropped_through, sequenced)

def truncated_message : Text :=
  "terminal replay is limited to the most recent 1048576 bytes".toList

def replay_is_truncated (dropped_through since : Option Nat) : Bool :=
  dropped_through.any fun dropped =>
    match since with
    | some sequence => sequence < dropped
    | none => true

def truncation_marker (session_id : Text) (generation : Nat) (dropped_through : Option Nat) :
    SequencedTerminalEvent where
  sequence := dropped_through.getD 0
  generation := generation
  event :=
    { session_id := session_id
      kind := .replay_truncated
      data := none
      exit_code := none
      message := some truncated_message }

/-- `attach`: the replay for a browser that has the events up to a number. -/
def TerminalEventStream.attach (stream : TerminalEventStream) (session_id : Text) (generation : Nat)
    (since : Option Nat) : List SequencedTerminalEvent :=
  (if replay_is_truncated stream.dropped_through since then
    [truncation_marker session_id generation stream.dropped_through]
  else []) ++ stream.replay.filter fun event => since.getD 0 < event.sequence

/-! ### What is retained -/

variable {stream : TerminalEventStream} {entries published : List SequencedTerminalEvent}
  {last bytes since : Nat} {dropped : Option Nat}

def replay_size : List SequencedTerminalEvent → Nat
  | [] => 0
  | entry :: rest => replay_event_bytes entry.event + replay_size rest

theorem replay_size_push (entries : List SequencedTerminalEvent) (entry : SequencedTerminalEvent) :
    replay_size (entries ++ [entry]) = replay_size entries + replay_event_bytes entry.event := by
  induction entries with
  | nil => simp [replay_size]
  | cons first entries ih =>
    rw [List.cons_append, replay_size, ih, replay_size]
    omega

/-- What evicting leaves of entries numbered without gaps: the last of them, whose sizes add up
    to the bytes, which are within the limit. -/
structure Evicted (stream : TerminalEventStream) (entries : List SequencedTerminalEvent) (last : Nat)
    (result : TerminalEventStream) : Prop where
  next_sequence : result.next_sequence = stream.next_sequence
  suffix : result.replay <:+ entries
  bytes_eq : result.replay_bytes = replay_size result.replay
  bytes_le : result.replay_bytes ≤ MAX_TERMINAL_REPLAY_BYTES
  dropped_through : result.dropped_through.getD 0 + result.replay.length = last + entries.length
  dropped_pos : ∀ sequence, result.dropped_through = some sequence → 0 < sequence

/-- A counter that has stopped at `cap` only does so for the newest entry, and evicting goes on
    until that entry is gone. -/
theorem evict_effect {cap : Nat} (h : Consecutive SequencedTerminalEvent.sequence last entries)
    (hdropped : dropped.getD 0 = last) (hpos : ∀ sequence, dropped = some sequence → 0 < sequence)
    (hbytes : bytes = min (replay_size entries) cap)
    (hcap : entries ≠ [] → MAX_TERMINAL_REPLAY_BYTES + replay_size entries.dropLast < cap) :
    Evicted stream entries last (stream.evict entries bytes dropped) := by
  induction entries generalizing last bytes cap dropped with
  | nil =>
    have hzero : bytes = 0 := by
      rw [hbytes]
      exact Nat.zero_min _
    have hlimit : ¬ bytes > MAX_TERMINAL_REPLAY_BYTES := by omega
    rw [TerminalEventStream.evict, if_neg hlimit]
    exact ⟨rfl, List.suffix_rfl, hzero, by rw [hzero]; exact Nat.zero_le _, by rw [hdropped], hpos⟩
  | cons removed rest ih =>
    have hcap := hcap (List.cons_ne_nil _ _)
    have hsize : replay_size (removed :: rest) = replay_event_bytes removed.event + replay_size rest := by
      simp [replay_size]
    rw [TerminalEventStream.evict]
    split
    case isTrue hlimit =>
      have hseq := h.1
      have hrest := @ih (last + 1) (bytes - replay_event_bytes removed.event) (some removed.sequence)
        (cap - replay_event_bytes removed.event) h.2 hseq
        (fun sequence hsome => by have := Option.some.inj hsome; omega) (by omega) (fun hmore => by
          have hsplit : replay_size (removed :: rest).dropLast =
              replay_event_bytes removed.event + replay_size rest.dropLast := by
            obtain ⟨second, others, rfl⟩ := List.exists_cons_of_ne_nil hmore
            simp [replay_size]
          omega)
      refine ⟨hrest.next_sequence, hrest.suffix.trans (List.suffix_cons removed rest), hrest.bytes_eq,
        hrest.bytes_le, ?_, hrest.dropped_pos⟩
      rw [hrest.dropped_through, List.length_cons]
      omega
    case isFalse hlimit =>
      have hle : bytes ≤ MAX_TERMINAL_REPLAY_BYTES := not_lt.mp hlimit
      exact ⟨rfl, List.suffix_rfl, by
        show bytes = replay_size (removed :: rest)
        omega, hle, by rw [hdropped], hpos⟩

/-- The stream retains the last of the events that were published. -/
structure Retains (stream : TerminalEventStream) (published : List SequencedTerminalEvent) : Prop where
  consecutive : Consecutive SequencedTerminalEvent.sequence 0 published
  length_eq : published.length = stream.next_sequence
  suffix : stream.replay <:+ published
  bytes_eq : stream.replay_bytes = replay_size stream.replay
  bytes_le : stream.replay_bytes ≤ MAX_TERMINAL_REPLAY_BYTES
  dropped_through : stream.dropped_through.getD 0 + stream.replay.length = stream.next_sequence
  dropped_pos : ∀ sequence, stream.dropped_through = some sequence → 0 < sequence

theorem retains_new : Retains .new [] :=
  ⟨trivial, rfl, List.suffix_rfl, rfl, Nat.zero_le _, rfl, nofun⟩

/-- The retained events are those behind the last one dropped. -/
theorem Retains.replay_consecutive (h : Retains stream published) :
    Consecutive SequencedTerminalEvent.sequence (stream.dropped_through.getD 0) stream.replay := by
  have hbase := h.consecutive.suffix h.suffix
  have hlen := h.dropped_through
  have hsame : 0 + published.length - stream.replay.length = stream.dropped_through.getD 0 := by
    rw [h.length_eq]
    omega
  exact hsame ▸ hbase

/-- The evicted events are those up to the last one dropped. -/
theorem Retains.evicted_iff {event : SequencedTerminalEvent} (h : Retains stream published)
    (hevent : event ∈ published) :
    event ∉ stream.replay ↔ event.sequence ≤ stream.dropped_through.getD 0 := by
  have hlen := h.dropped_through
  constructor
  · intro hgone
    obtain ⟨gone, hsplit⟩ := h.suffix
    rw [← hsplit] at hevent
    have hbefore : event ∈ gone := (List.mem_append.mp hevent).resolve_right hgone
    have hconsecutive := h.consecutive
    have hlength := h.length_eq
    rw [← hsplit] at hconsecutive hlength
    rw [List.length_append] at hlength
    have hle := (Stream.consecutive_append.mp hconsecutive).1.le hbefore
    omega
  · intro hle hretained
    have hlt := h.replay_consecutive.lt hretained
    omega

/-- Publishing without wrapping. -/
theorem Retains.publish (h : Retains stream published) (generation : Nat) (event : TerminalEvent)
    (hbound : stream.next_sequence < MAX_U64) :
    Retains (stream.publish generation event).1 (published ++ [(stream.publish generation event).2]) ∧
      (stream.publish generation event).1.next_sequence = stream.next_sequence + 1 ∧
      (stream.publish generation event).2 = ⟨stream.next_sequence + 1, generation, event⟩ ∧
      stream.dropped_through.getD 0 ≤ (stream.publish generation event).1.dropped_through.getD 0 := by
  have hsequence : max ((stream.next_sequence + 1) % (MAX_U64 + 1)) 1 = stream.next_sequence + 1 := by
    have hwrap : (stream.next_sequence + 1) % (MAX_U64 + 1) = stream.next_sequence + 1 :=
      Nat.mod_eq_of_lt (by omega)
    rw [hwrap]
    exact Nat.max_eq_left (Nat.le_add_left 1 _)
  have hsame : (stream.publish generation event).2 = ⟨stream.next_sequence + 1, generation, event⟩ := by
    simp only [TerminalEventStream.publish, hsequence]
  have hpublished : Consecutive SequencedTerminalEvent.sequence 0
      (published ++ [(stream.publish generation event).2]) := by
    refine h.consecutive.push ?_
    rw [hsame, h.length_eq, Nat.zero_add]
  have hpushed : Consecutive SequencedTerminalEvent.sequence (stream.dropped_through.getD 0)
      (stream.replay ++ [(stream.publish generation event).2]) := by
    have hlen := h.dropped_through
    rw [hsame]
    exact h.replay_consecutive.push (by show stream.next_sequence + 1 = _; omega)
  have hsize : replay_size (stream.replay ++ [(stream.publish generation event).2]) =
      stream.replay_bytes + replay_event_bytes event := by
    rw [replay_size_push, h.bytes_eq, hsame]
  have hcap : MAX_TERMINAL_REPLAY_BYTES +
      replay_size (stream.replay ++ [(stream.publish generation event).2]).dropLast < MAX_USIZE := by
    rw [List.dropLast_concat, ← h.bytes_eq]
    have hle := h.bytes_le
    have hroom : MAX_TERMINAL_REPLAY_BYTES + MAX_TERMINAL_REPLAY_BYTES < MAX_USIZE := by decide
    omega
  have hevict : Evicted { stream with next_sequence := stream.next_sequence + 1 }
      (stream.replay ++ [(stream.publish generation event).2]) (stream.dropped_through.getD 0)
      (stream.publish generation event).1 := by
    have hstream : (stream.publish generation event).1 =
        ({ stream with next_sequence := stream.next_sequence + 1 } : TerminalEventStream).evict
          (stream.replay ++ [(stream.publish generation event).2])
          (min (stream.replay_bytes + replay_event_bytes event) MAX_USIZE) stream.dropped_through := by
      simp only [TerminalEventStream.publish, hsequence]
    rw [hstream]
    exact evict_effect hpushed rfl h.dropped_pos (by rw [hsize]) fun _ => hcap
  obtain ⟨hnext, hsuffix, heq, hle, hdropped, hpos⟩ := hevict
  have hnext : (stream.publish generation event).1.next_sequence = stream.next_sequence + 1 := hnext
  have hlen := h.dropped_through
  have hshort := hsuffix.length_le
  rw [List.length_append, List.length_singleton] at hdropped hshort
  refine ⟨⟨hpublished, ?_, ?_, heq, hle, by omega, hpos⟩, hnext, hsame, by omega⟩
  · rw [List.length_append, List.length_singleton, h.length_eq, hnext]
  · obtain ⟨gone, hgone⟩ := h.suffix
    refine hsuffix.trans ⟨gone, ?_⟩
    rw [← List.append_assoc, hgone]

/-! ### What a browser is sent -/

def SequencedTerminalEvent.is_truncation (event : SequencedTerminalEvent) : Bool :=
  event.event.kind = .replay_truncated

variable {session_id : Text} {generation : Nat} {requested : Option Nat}

theorem replay_is_truncated_iff (h : Retains stream published) :
    replay_is_truncated stream.dropped_through requested = true ↔
      requested.getD 0 < stream.dropped_through.getD 0 := by
  cases hdropped : stream.dropped_through with
  | none => exact iff_of_false Bool.false_ne_true (Nat.not_lt_zero _)
  | some dropped =>
    have hpos := h.dropped_pos dropped hdropped
    cases requested with
    | none => exact iff_of_true rfl hpos
    | some sequence => simp [replay_is_truncated]

/-- The marker with all that is retained, or what is retained behind the number asked for. -/
theorem attach_cases (h : Retains stream published) :
    (requested.getD 0 < stream.dropped_through.getD 0 ∧
      stream.attach session_id generation requested =
        truncation_marker session_id generation stream.dropped_through :: stream.replay) ∨
    (stream.dropped_through.getD 0 ≤ requested.getD 0 ∧
      stream.attach session_id generation requested =
        stream.replay.filter fun event => requested.getD 0 < event.sequence) := by
  unfold TerminalEventStream.attach
  by_cases hlt : requested.getD 0 < stream.dropped_through.getD 0
  · refine .inl ⟨hlt, ?_⟩
    have hall : stream.replay.filter (fun event => requested.getD 0 < event.sequence) =
        stream.replay := by
      apply List.filter_eq_self.mpr
      intro event hevent
      exact decide_eq_true (hlt.trans (h.replay_consecutive.lt hevent))
    rw [hall, if_pos ((replay_is_truncated_iff h).mpr hlt)]
    rfl
  · refine .inr ⟨not_lt.mp hlt, ?_⟩
    rw [if_neg (mt (replay_is_truncated_iff h).mp hlt)]
    rfl

/-- What is sent goes on from the number asked for to the last event, with at most one marker. -/
theorem attach_forward (h : Retains stream published)
    (hrequested : requested.getD 0 ≤ stream.next_sequence) :
    Forward SequencedTerminalEvent.sequence SequencedTerminalEvent.is_truncation (requested.getD 0)
        (stream.attach session_id generation requested) ∧
      reach SequencedTerminalEvent.sequence (requested.getD 0)
        (stream.attach session_id generation requested) = stream.next_sequence := by
  have hreplay := h.replay_consecutive
  have hlen := h.dropped_through
  rcases attach_cases h with ⟨hlt, hattach⟩ | ⟨hle, hattach⟩
  · rw [hattach]
    refine ⟨⟨.inl ⟨rfl, hlt⟩, hreplay.forward⟩, ?_⟩
    show reach _ (stream.dropped_through.getD 0) stream.replay = _
    rw [hreplay.reach, hlen]
  · obtain ⟨hitems, hreached⟩ := hreplay.filter hle (hlen ▸ hrequested)
    rw [hattach]
    exact ⟨hitems.forward, hitems.reach.trans (hreached.trans hlen)⟩

/-- **A marker is sent iff an event behind the number asked for has been evicted.** -/
theorem attach_truncated (h : Retains stream published)
    (hkinds : ∀ event ∈ published, event.is_truncation = false) :
    (∃ marker ∈ stream.attach session_id generation requested, marker.is_truncation = true) ↔
      ∃ event ∈ published, requested.getD 0 < event.sequence ∧ event ∉ stream.replay := by
  rcases attach_cases h with ⟨hlt, hattach⟩ | ⟨hle, hattach⟩
  · refine iff_of_true ⟨_, hattach ▸ List.mem_cons_self, rfl⟩ ?_
    have hlen := h.dropped_through
    have hreached : stream.dropped_through.getD 0 ≤ 0 + published.length := by
      rw [h.length_eq]
      omega
    obtain ⟨event, hevent, hsequence⟩ := h.consecutive.exists (Nat.zero_lt_of_lt hlt) hreached
    exact ⟨event, hevent, hsequence ▸ hlt, (h.evicted_iff hevent).mpr hsequence.le⟩
  · refine iff_of_false ?_ ?_
    · rintro ⟨marker, hmem, hmarker⟩
      rw [hattach] at hmem
      have hpublished := h.suffix.subset (List.mem_of_mem_filter hmem)
      simp [hkinds marker hpublished] at hmarker
    · rintro ⟨event, hevent, hafter, hgone⟩
      have hdropped := (h.evicted_iff hevent).mp hgone
      omega

end Terminal
