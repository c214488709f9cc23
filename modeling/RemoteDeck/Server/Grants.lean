import Mathlib.Data.Nat.Bitwise
import RemoteDeck.Lib.Tickets
import RemoteDeck.Server.Auth

/-! # What authentication grants

    The two kinds of tickets are single-use tickets with a lifetime.  A
    session that a step leaves was there before, with its token, or is new;
    a step that gives it a later end found it before its end.
-/

namespace Server

variable {auth : Auth} {headers : Headers} {secrets : Secrets} {clock : Instants}

/-! ### The operations -/

theorem check_host_ok (h : check_host auth headers = .ok ()) :
    headers.text "host" = some auth.authority := by
  unfold check_host at h
  split at h
  · nomatch h
  · next hhost => exact Classical.not_not.mp hhost

/-- The origin is allowed. -/
def Allowed (auth : Auth) (headers : Headers) : Prop :=
  ∃ origin, headers.text "origin" = some origin ∧
    (origin = auth.origin ∨ auth.dev_origin = some origin)

theorem check_origin_ok (h : check_origin auth headers true = .ok ()) : Allowed auth headers := by
  unfold check_origin at h
  split at h
  · next origin horigin =>
    split at h
    · next hallowed => exact ⟨origin, horigin, hallowed⟩
    · nomatch h
  · nomatch h

theorem foldl_xor {pairs : List (Char × Char)} {start : Nat}
    (h : pairs.foldl (fun acc pair => acc ||| (pair.1.toNat ^^^ pair.2.toNat)) start = 0) :
    start = 0 ∧ ∀ pair ∈ pairs, pair.1 = pair.2 := by
  induction pairs generalizing start with
  | nil => exact ⟨h, fun _ hmem => absurd hmem List.not_mem_nil⟩
  | cons first pairs ih =>
    obtain ⟨hstart, hpairs⟩ := ih h
    obtain ⟨hstart, hfirst⟩ := Nat.or_eq_zero_iff.mp hstart
    refine ⟨hstart, ?_⟩
    intro pair hmem
    rcases List.mem_cons.mp hmem with hsame | hrest
    · rw [hsame]
      exact Char.toNat_inj.mp (Nat.xor_eq_zero_iff.mp hfirst)
    · exact hpairs pair hrest

theorem constant_eq_eq {left right : Text} (h : constant_eq left right = true) : left = right := by
  unfold constant_eq at h
  split at h
  · exact absurd h Bool.false_ne_true
  · next hlength =>
    obtain ⟨_, hpairs⟩ := foldl_xor (of_decide_eq_true h)
    have hlength := Classical.not_not.mp hlength
    apply List.ext_getElem hlength
    intro index hleft hright
    have hzip : index < (left.zip right).length := by
      rw [List.length_zip]
      omega
    have hsame := hpairs _ (List.getElem_mem hzip)
    rw [List.getElem_zip] at hsame
    exact hsame

/-- A required session: its headers, and the session of the table. -/
theorem require_cases (auth : Auth) (headers : Headers) (secrets : Secrets) (clock : Instants)
    (mutation : Bool) :
    (∃ error, require auth headers secrets clock mutation = (.error error, secrets)) ∨
    ∃ id session, check_host auth headers = .ok () ∧ check_origin auth headers mutation = .ok () ∧
      cookie_id auth headers = some id ∧ secrets.sessions.lookup id = some session ∧
      clock.first < session.expires ∧
      (mutation = true → headers.text "x-remotedeck-csrf" = some session.csrf) ∧
      require auth headers secrets clock mutation =
        (.ok { session with expires := clock.last + SESSION_TTL },
          { secrets with
            sessions := secrets.sessions.insert id
              { session with expires := clock.last + SESSION_TTL } }) := by
  unfold require
  split
  · exact .inl ⟨_, rfl⟩
  · exact .inl ⟨_, rfl⟩
  · next hhost horigin =>
    split
    · exact .inl ⟨_, rfl⟩
    · next id hid =>
      split
      · exact .inl ⟨_, rfl⟩
      · next session hsession =>
        obtain ⟨hlookup, hlive⟩ := Option.filter_eq_some_iff.mp hsession
        split
        · exact .inl ⟨_, rfl⟩
        · next hcsrf =>
          refine .inr ⟨id, session, hhost, horigin, hid, hlookup, of_decide_eq_true hlive, ?_, rfl⟩
          intro hmutation
          rw [hmutation, Bool.true_and, Bool.not_eq_true', Bool.not_eq_false] at hcsrf
          obtain ⟨csrf, htext, hequal⟩ := (Option.any_eq_true _ _).mp hcsrf
          rw [htext, constant_eq_eq hequal]

theorem launch_url_cases (auth : Auth) (secrets : Secrets) (clock : Instants) (ticket : Text) :
    let launch := secrets.launch.retain fun key item => item.expires > clock.retain key
    (∃ error, launch_url auth secrets clock ticket = (.error error, { secrets with launch := launch })) ∨
    (launch.entries.length < MAX_TICKETS ∧ ∃ url, launch_url auth secrets clock ticket =
      (.ok url, { secrets with launch := launch.insert ticket ⟨clock.last + TICKET_TTL⟩ })) := by
  intro launch
  unfold launch_url
  dsimp only
  split
  · exact .inl ⟨_, rfl⟩
  · next hless => exact .inr ⟨Nat.lt_of_not_le hless, _, rfl⟩

theorem issue_terminal_cases (secrets : Secrets) (clock : Instants) (browser : Session)
    (session_id : Text) (generation : Nat) (ticket : Text) :
    let terminals := secrets.terminals.retain fun key item => item.expires > clock.retain key
    (∃ error, issue_terminal secrets clock browser session_id generation ticket =
      (.error error, { secrets with terminals := terminals })) ∨
    (terminals.entries.length < MAX_TICKETS ∧
      issue_terminal secrets clock browser session_id generation ticket =
        (.ok ticket, { secrets with
          terminals := terminals.insert ticket
            { session_id := session_id
              browser_id := browser.id
              generation := generation
              expires := clock.last + TICKET_TTL } })) := by
  intro terminals
  unfold issue_terminal
  dsimp only
  split
  · exact .inl ⟨_, rfl⟩
  · next hless => exact .inr ⟨Nat.lt_of_not_le hless, rfl⟩

theorem claim_ticket_cases (secrets : Secrets) (clock : Instants) (session : Session) (ticket : Text) :
    let removed := { secrets with terminals := secrets.terminals.erase ticket }
    (∃ error, claim_ticket secrets clock session ticket = (.error error, removed)) ∨
    ∃ item, secrets.terminals.lookup ticket = some item ∧ clock.first < item.expires ∧
      item.browser_id = session.id ∧ claim_ticket secrets clock session ticket = (.ok item, removed) := by
  intro removed
  unfold claim_ticket
  dsimp only
  split
  · next item hitem =>
    obtain ⟨hlookup, hboth⟩ := Option.filter_eq_some_iff.mp hitem
    obtain ⟨hlive, hbrowser⟩ := Bool.and_eq_true_iff.mp hboth
    exact .inr ⟨item, hlookup, of_decide_eq_true hlive, of_decide_eq_true hbrowser, rfl⟩
  · exact .inl ⟨_, rfl⟩

/-- What `retain` leaves of the sessions. -/
theorem lookup_live_sessions {id : Text} {session : Session} :
    (secrets.sessions.retain fun key item => item.expires > clock.retain key).lookup id =
        some session ↔
      secrets.sessions.lookup id = some session ∧ clock.retain id < session.expires := by
  rw [AList.lookup_retain_some, decide_eq_true_iff]

theorem grant_cases (auth : Auth) (headers : Headers) (secrets : Secrets) (clock : Instants)
    (new_session : Session) :
    let sessions := secrets.sessions.retain fun key item => item.expires > clock.retain key
    (∃ id existing, cookie_id auth headers = some id ∧ secrets.sessions.lookup id = some existing ∧
      clock.retain id < existing.expires ∧
      ∃ cookie, grant auth headers secrets clock new_session =
        (.ok ({ existing with expires := clock.last + SESSION_TTL }, cookie),
          { secrets with
            sessions := sessions.insert id { existing with expires := clock.last + SESSION_TTL } })) ∨
    ((∀ id existing, cookie_id auth headers = some id → secrets.sessions.lookup id = some existing →
        existing.expires ≤ clock.retain id) ∧
      ((∃ error, grant auth headers secrets clock new_session =
          (.error error, { secrets with sessions := sessions })) ∨
        (sessions.entries.length < MAX_SESSIONS ∧ ∃ cookie,
          grant auth headers secrets clock new_session =
            (.ok ({ new_session with expires := clock.last + SESSION_TTL }, cookie),
              { secrets with
                sessions := sessions.insert new_session.id
                  { new_session with expires := clock.last + SESSION_TTL } })))) := by
  intro sessions
  unfold grant
  dsimp only
  split
  · next id existing hfound =>
    obtain ⟨cookie, hcookie, hlookup⟩ := Option.bind_eq_some_iff.mp hfound
    obtain ⟨session, hkept, hpair⟩ := Option.map_eq_some_iff.mp hlookup
    obtain ⟨rfl, rfl⟩ := Prod.mk.inj hpair
    obtain ⟨hbefore, hlive⟩ := lookup_live_sessions.mp hkept
    exact .inl ⟨cookie, session, hcookie, hbefore, hlive, _, rfl⟩
  · next hnone =>
    refine .inr ⟨?_, ?_⟩
    · intro id existing hcookie hlookup
      rw [hcookie, Option.bind_some, Option.map_eq_none_iff] at hnone
      apply Nat.le_of_not_lt
      intro hlive
      have hkept := lookup_live_sessions.mpr ⟨hlookup, hlive⟩
      rw [hnone] at hkept
      exact absurd hkept.symm (Option.some_ne_none existing)
    · split
      · exact .inl ⟨_, rfl⟩
      · next hless => exact .inr ⟨Nat.lt_of_not_le hless, _, rfl⟩

theorem exchange_cases (auth : Auth) (headers : Headers) (secrets : Secrets) (clock : Instants)
    (ticket id csrf : Text) :
    (∃ error, exchange auth headers secrets clock ticket id csrf = (.error error, secrets)) ∨
    (∃ error, exchange auth headers secrets clock ticket id csrf =
      (.error error, { secrets with launch := secrets.launch.erase ticket })) ∨
    ∃ item, secrets.launch.lookup ticket = some item ∧ clock.first < item.expires ∧
      exchange auth headers secrets clock ticket id csrf =
        grant auth headers { secrets with launch := secrets.launch.erase ticket } clock ⟨id, csrf, 0⟩ := by
  unfold exchange
  split
  · exact .inl ⟨_, rfl⟩
  · exact .inl ⟨_, rfl⟩
  · dsimp only
    split
    · next hvalid =>
      obtain ⟨item, hlookup, hlive⟩ := (Option.any_eq_true _ _).mp hvalid
      exact .inr (.inr ⟨item, hlookup, of_decide_eq_true hlive, rfl⟩)
    · exact .inr (.inl ⟨_, rfl⟩)

/-! ### Sessions -/

variable {run run' : AuthRun} {label : AuthLabel} {id : Text} {session' : Session}

theorem Pace.first_le (pace : Pace) (now : Nat) : now ≤ (pace.instants now).first :=
  Nat.le_add_right _ _

theorem Instants.ordered (clock : Instants) : clock.first ≤ clock.last :=
  Nat.le_trans (clock.first_le []) (clock.le_last [])

theorem Pace.le_last (pace : Pace) (now : Nat) : now ≤ (pace.instants now).last :=
  Nat.le_trans (pace.first_le now) (pace.instants now).ordered

/-- Where a session of the table comes from: it was there, it was there and
    live, or its identifier is new. -/
inductive SessionSource (run : AuthRun) (tokens : List Text) (id : Text) (session' : Session) : Prop where
  | kept (h : run.secrets.sessions.lookup id = some session')
  | renewed (session : Session) (h : run.secrets.sessions.lookup id = some session)
      (hlive : run.now < session.expires) (hid : session'.id = session.id)
      (hcsrf : session'.csrf = session.csrf)
  | made (hfresh : id ∉ run.tokens) (hknown : id ∈ tokens) (hid : session'.id = id)

theorem require_source {mutation : Bool} {pace : Pace} {tokens : List Text}
    (h : (require auth headers run.secrets (pace.instants run.now) mutation).2.sessions.lookup id =
      some session') : SessionSource run tokens id session' := by
  rcases require_cases auth headers run.secrets (pace.instants run.now) mutation with
    ⟨error, hrequire⟩ | ⟨cookie, session, _, _, _, hlookup, hlive, _, hrequire⟩
  · rw [hrequire] at h
    exact .kept h
  · rw [hrequire] at h
    dsimp only at h
    by_cases hid : id = cookie
    · rw [hid, AList.lookup_insert] at h
      rw [← Option.some.inj h, hid]
      exact .renewed session hlookup (Nat.lt_of_le_of_lt (pace.first_le run.now) hlive) rfl rfl
    · rw [AList.lookup_insert_ne hid] at h
      exact .kept h

theorem grant_source {launch : AList fun _ : Text => LaunchTicket} {pace : Pace} {csrf new_id : Text}
    {tokens : List Text} (hfresh : new_id ∉ run.tokens) (hknown : new_id ∈ tokens)
    (h : (grant auth headers { run.secrets with launch := launch } (pace.instants run.now)
      ⟨new_id, csrf, 0⟩).2.sessions.lookup id = some session') : SessionSource run tokens id session' := by
  have hpruned : ∀ id session, (run.secrets.sessions.retain fun key item =>
      item.expires > (pace.instants run.now).retain key).lookup id = some session →
        run.secrets.sessions.lookup id = some session :=
    fun _ _ hlookup => (lookup_live_sessions.mp hlookup).1
  rcases grant_cases auth headers { run.secrets with launch := launch } (pace.instants run.now)
      ⟨new_id, csrf, 0⟩ with
    ⟨cookie, existing, _, hlookup, hlive, _, hgrant⟩ | ⟨_, ⟨error, hgrant⟩ | ⟨_, _, hgrant⟩⟩
  · rw [hgrant] at h
    dsimp only at h
    by_cases hid : id = cookie
    · rw [hid, AList.lookup_insert] at h
      rw [← Option.some.inj h, hid]
      have hfirst := (pace.instants run.now).first_le cookie
      have hnow := pace.first_le run.now
      exact .renewed existing hlookup (by omega) rfl rfl
    · rw [AList.lookup_insert_ne hid] at h
      exact .kept (hpruned id session' h)
  · rw [hgrant] at h
    exact .kept (hpruned id session' h)
  · rw [hgrant] at h
    dsimp only at h
    by_cases hid : id = new_id
    · rw [hid, AList.lookup_insert] at h
      rw [← Option.some.inj h, hid]
      exact .made hfresh hknown rfl
    · rw [AList.lookup_insert_ne hid] at h
      exact .kept (hpruned id session' h)

/-- What a step can do to a session. -/
theorem step_sessions (hnext : run.next auth label = some run')
    (h : run'.secrets.sessions.lookup id = some session') : SessionSource run run'.tokens id session' := by
  cases label with
  | pass span =>
    obtain rfl := Option.some.inj hnext
    exact .kept h
  | launch_url pace ticket =>
    obtain ⟨_, hnext⟩ := Option.ite_none_left_eq_some.mp hnext
    obtain rfl := Option.some.inj hnext
    dsimp only at h
    rcases launch_url_cases auth run.secrets (pace.instants run.now) ticket with
      ⟨error, hcall⟩ | ⟨_, url, hcall⟩
    · rw [hcall] at h
      exact .kept h
    · rw [hcall] at h
      exact .kept h
  | exchange pace headers ticket new_id csrf =>
    obtain ⟨hfresh, hnext⟩ := Option.ite_none_left_eq_some.mp hnext
    obtain rfl := Option.some.inj hnext
    dsimp only at h
    rcases exchange_cases auth headers run.secrets (pace.instants run.now) ticket new_id csrf with
      ⟨error, hcall⟩ | ⟨error, hcall⟩ | ⟨item, _, _, hcall⟩
    · rw [hcall] at h
      exact .kept h
    · rw [hcall] at h
      exact .kept h
    · rw [hcall] at h
      exact grant_source (fun hknown => hfresh (.inl hknown)) List.mem_cons_self h
  | require pace headers mutation =>
    obtain rfl := Option.some.inj hnext
    exact require_source h
  | issue_terminal pace browser session_id generation ticket =>
    obtain ⟨_, hnext⟩ := Option.ite_none_left_eq_some.mp hnext
    obtain rfl := Option.some.inj hnext
    dsimp only at h
    rcases issue_terminal_cases run.secrets (pace.instants run.now) browser session_id generation
      ticket with ⟨error, hcall⟩ | ⟨_, hcall⟩
    · rw [hcall] at h
      exact .kept h
    · rw [hcall] at h
      exact .kept h
  | claim_session pace headers ticket =>
    obtain rfl := Option.some.inj hnext
    dsimp only at h
    unfold claim_session at h
    split at h
    · exact .kept h
    · exact require_source h
  | claim_ticket pace index =>
    obtain ⟨claim, _, rfl⟩ := Option.map_eq_some_iff.mp hnext
    dsimp only at h
    rcases claim_ticket_cases run.secrets (pace.instants run.now) claim.session claim.ticket with
      ⟨error, hcall⟩ | ⟨item, _, _, _, hcall⟩
    · rw [hcall] at h
      exact .kept h
    · rw [hcall] at h
      exact .kept h

/-- The clock goes on, and tokens are not forgotten. -/
theorem step_monotone (hnext : run.next auth label = some run') :
    run.now ≤ run'.now ∧ run.tokens ⊆ run'.tokens := by
  cases label with
  | pass span =>
    obtain rfl := Option.some.inj hnext
    exact ⟨Nat.le_add_right _ _, List.Subset.refl _⟩
  | launch_url pace ticket =>
    obtain ⟨_, hnext⟩ := Option.ite_none_left_eq_some.mp hnext
    obtain rfl := Option.some.inj hnext
    exact ⟨pace.le_last run.now, List.subset_cons_self _ _⟩
  | exchange pace headers ticket new_id csrf =>
    obtain ⟨_, hnext⟩ := Option.ite_none_left_eq_some.mp hnext
    obtain rfl := Option.some.inj hnext
    exact ⟨pace.le_last run.now, fun _ hmem =>
      List.mem_cons_of_mem new_id (List.mem_cons_of_mem csrf hmem)⟩
  | require pace headers mutation =>
    obtain rfl := Option.some.inj hnext
    exact ⟨pace.le_last run.now, List.Subset.refl _⟩
  | issue_terminal pace browser session_id generation ticket =>
    obtain ⟨_, hnext⟩ := Option.ite_none_left_eq_some.mp hnext
    obtain rfl := Option.some.inj hnext
    exact ⟨pace.le_last run.now, List.subset_cons_self _ _⟩
  | claim_session pace headers ticket =>
    obtain rfl := Option.some.inj hnext
    exact ⟨pace.le_last run.now, List.Subset.refl _⟩
  | claim_ticket pace index =>
    obtain ⟨claim, _, rfl⟩ := Option.map_eq_some_iff.mp hnext
    exact ⟨pace.le_last run.now, List.Subset.refl _⟩

/-- A known session that is live after a step was live before it. -/
theorem live_before (hnext : run.next auth label = some run') (hid : id ∈ run.tokens)
    (hlive : live run'.secrets id run'.now = true) : live run.secrets id run.now = true := by
  obtain ⟨session', hlookup, hexpires⟩ := (Option.any_eq_true _ _).mp hlive
  have hexpires := of_decide_eq_true hexpires
  unfold live
  cases step_sessions hnext hlookup with
  | kept h =>
    rw [h]
    exact decide_eq_true (Nat.lt_of_le_of_lt (step_monotone hnext).1 hexpires)
  | renewed session h hbefore _ _ =>
    rw [h]
    exact decide_eq_true hbefore
  | made hfresh _ _ => exact absurd hid hfresh

/-! ### Tickets -/

def as_launch : AuthEvent → Option (Text × Unit × Nat)
  | .launched ticket instant => some (ticket, (), instant)
  | _ => none

def as_grant : AuthEvent → Option (Text × Unit × Nat)
  | .granted ticket _ instant => some (ticket, (), instant)
  | _ => none

def as_issue : AuthEvent → Option (Text × Text × Nat)
  | .issued ticket browser instant => some (ticket, browser, instant)
  | _ => none

def as_claim : AuthEvent → Option (Text × Text × Nat)
  | .claimed ticket browser instant => some (ticket, browser, instant)
  | _ => none

structure AuthInv (run : AuthRun) : Prop where
  launch : TicketInv LaunchTicket.expires (fun _ => ()) TICKET_TTL run.now run.tokens
    run.secrets.launch (run.log.filterMap as_launch) (run.log.filterMap as_grant)
  terminals : TicketInv TerminalTicket.expires TerminalTicket.browser_id TICKET_TTL run.now run.tokens
    run.secrets.terminals (run.log.filterMap as_issue) (run.log.filterMap as_claim)
  session : ∀ id session, run.secrets.sessions.lookup id = some session →
    session.id = id ∧ id ∈ run.tokens
  /-- A grant is of a known session. -/
  granted : ∀ ticket id instant, .granted ticket id instant ∈ run.log → id ∈ run.tokens
  launch_bound : run.secrets.launch.entries.length ≤ MAX_TICKETS
  terminal_bound : run.secrets.terminals.entries.length ≤ MAX_TICKETS
  session_bound : run.secrets.sessions.entries.length ≤ MAX_SESSIONS

theorem authInv_start (now : Nat) : AuthInv (.start now) where
  launch := .empty
  terminals := .empty
  session := fun _ _ h => absurd h.symm (Option.some_ne_none _)
  granted := fun _ _ _ h => absurd h List.not_mem_nil
  launch_bound := Nat.zero_le _
  terminal_bound := Nat.zero_le _
  session_bound := Nat.zero_le _

theorem require_frame (auth : Auth) (headers : Headers) (secrets : Secrets) (clock : Instants)
    (mutation : Bool) :
    (require auth headers secrets clock mutation).2.launch = secrets.launch ∧
      (require auth headers secrets clock mutation).2.terminals = secrets.terminals ∧
      (require auth headers secrets clock mutation).2.sessions.entries.length =
        secrets.sessions.entries.length := by
  rcases require_cases auth headers secrets clock mutation with
    ⟨error, hcall⟩ | ⟨id, session, _, _, _, hlookup, _, _, hcall⟩
  · rw [hcall]
    exact ⟨rfl, rfl, rfl⟩
  · rw [hcall]
    exact ⟨rfl, rfl, AList.length_insert_of_lookup hlookup⟩

theorem claim_session_frame (auth : Auth) (headers : Headers) (secrets : Secrets) (clock : Instants) :
    (claim_session auth headers secrets clock).2.launch = secrets.launch ∧
      (claim_session auth headers secrets clock).2.terminals = secrets.terminals ∧
      (claim_session auth headers secrets clock).2.sessions.entries.length =
        secrets.sessions.entries.length := by
  unfold claim_session
  split
  · exact ⟨rfl, rfl, rfl⟩
  · exact require_frame auth headers secrets clock false

theorem grant_frame (auth : Auth) (headers : Headers) (secrets : Secrets) (clock : Instants)
    (new_session : Session) (hbound : secrets.sessions.entries.length ≤ MAX_SESSIONS) :
    (grant auth headers secrets clock new_session).2.launch = secrets.launch ∧
      (grant auth headers secrets clock new_session).2.terminals = secrets.terminals ∧
      (grant auth headers secrets clock new_session).2.sessions.entries.length ≤ MAX_SESSIONS := by
  have hpruned := secrets.sessions.length_retain_le fun key item => item.expires > clock.retain key
  rcases grant_cases auth headers secrets clock new_session with
    ⟨id, existing, _, hlookup, hlive, _, hcall⟩ | ⟨_, ⟨error, hcall⟩ | ⟨hless, _, hcall⟩⟩
  · rw [hcall]
    refine ⟨rfl, rfl, ?_⟩
    dsimp only
    rw [AList.length_insert_of_lookup (lookup_live_sessions.mpr ⟨hlookup, hlive⟩)]
    exact Nat.le_trans hpruned hbound
  · rw [hcall]
    exact ⟨rfl, rfl, Nat.le_trans hpruned hbound⟩
  · rw [hcall]
    exact ⟨rfl, rfl, Nat.le_trans (AList.length_insert_le _ _ _) hless⟩

/-- The session of a grant is one of the table, or the new one. -/
theorem grant_id {new_session : Session} {granted : Session × Text}
    (hsession : ∀ id session, secrets.sessions.lookup id = some session → session.id = id)
    (h : (grant auth headers secrets clock new_session).1 = .ok granted) :
    (∃ stored, secrets.sessions.lookup granted.1.id = some stored) ∨
      granted.1.id = new_session.id := by
  rcases grant_cases auth headers secrets clock new_session with
    ⟨id, existing, _, hlookup, _, _, hcall⟩ | ⟨_, ⟨error, hcall⟩ | ⟨_, _, hcall⟩⟩
  · rw [hcall] at h
    obtain rfl := Except.ok.inj h
    left
    refine ⟨existing, ?_⟩
    show secrets.sessions.lookup existing.id = some existing
    rw [hsession id existing hlookup]
    exact hlookup
  · rw [hcall] at h
    nomatch h
  · rw [hcall] at h
    obtain rfl := Except.ok.inj h
    exact .inr rfl

theorem AuthInv.step_session (h : AuthInv run) (hnext : run.next auth label = some run') (id : Text)
    (session : Session) (hlookup : run'.secrets.sessions.lookup id = some session) :
    session.id = id ∧ id ∈ run'.tokens := by
  have hsubset := (step_monotone hnext).2
  cases step_sessions hnext hlookup with
  | kept hkept =>
    obtain ⟨hid, hknown⟩ := h.session id session hkept
    exact ⟨hid, hsubset hknown⟩
  | renewed old hold _ hid _ =>
    obtain ⟨hold_id, hknown⟩ := h.session id old hold
    exact ⟨hid.trans hold_id, hsubset hknown⟩
  | made _ hknown hid => exact ⟨hid, hknown⟩

/-- Events of another kind do not count. -/
theorem filterMap_events_none {α γ : Type} {log : List AuthEvent} (result : Except ApiError α)
    {event : α → AuthEvent} {k : AuthEvent → Option γ} (h : ∀ value, k (event value) = none) :
    (log ++ events result event).filterMap k = log.filterMap k := by
  rw [List.filterMap_append]
  cases result with
  | error error => exact List.append_nil _
  | ok value =>
    show _ ++ [event value].filterMap k = _
    rw [List.filterMap_cons, h value, List.filterMap_nil, List.append_nil]

theorem filterMap_events_ok {α γ : Type} {log : List AuthEvent} (value : α) {event : α → AuthEvent}
    {k : AuthEvent → Option γ} {item : γ} (h : k (event value) = some item) :
    (log ++ events (.ok value) event).filterMap k = log.filterMap k ++ [item] := by
  rw [List.filterMap_append]
  show _ ++ [event value].filterMap k = _
  rw [List.filterMap_cons, h, List.filterMap_nil]

theorem filterMap_events_error {α γ : Type} {log : List AuthEvent} (error : ApiError)
    {event : α → AuthEvent} {k : AuthEvent → Option γ} :
    (log ++ events (.error error) event).filterMap k = log.filterMap k := by
  show (log ++ []).filterMap k = _
  rw [List.append_nil]

theorem issue_terminal_frame (secrets : Secrets) (clock : Instants) (browser : Session)
    (session_id : Text) (generation : Nat) (ticket : Text) :
    (issue_terminal secrets clock browser session_id generation ticket).2.launch = secrets.launch ∧
      (issue_terminal secrets clock browser session_id generation ticket).2.sessions =
        secrets.sessions := by
  rcases issue_terminal_cases secrets clock browser session_id generation ticket with
    ⟨error, hcall⟩ | ⟨_, hcall⟩
  · rw [hcall]
    exact ⟨rfl, rfl⟩
  · rw [hcall]
    exact ⟨rfl, rfl⟩

theorem claim_ticket_frame (secrets : Secrets) (clock : Instants) (session : Session) (ticket : Text) :
    (claim_ticket secrets clock session ticket).2 =
      { secrets with terminals := secrets.terminals.erase ticket } := by
  rcases claim_ticket_cases secrets clock session ticket with ⟨error, hcall⟩ | ⟨item, _, _, _, hcall⟩
  · rw [hcall]
  · rw [hcall]

theorem launch_url_frame (auth : Auth) (secrets : Secrets) (clock : Instants) (ticket : Text) :
    (launch_url auth secrets clock ticket).2.sessions = secrets.sessions ∧
      (launch_url auth secrets clock ticket).2.terminals = secrets.terminals := by
  rcases launch_url_cases auth secrets clock ticket with ⟨error, hcall⟩ | ⟨_, url, hcall⟩
  · rw [hcall]
    exact ⟨rfl, rfl⟩
  · rw [hcall]
    exact ⟨rfl, rfl⟩

/-- The launch tickets after a grant or its failure. -/
theorem AuthInv.grant_launch (h : AuthInv run) {pace : Pace} {ticket : Text} {item : LaunchTicket}
    {tokens : List Text} (hknown : run.tokens ⊆ tokens)
    (hlookup : run.secrets.launch.lookup ticket = some item)
    (hlive : (pace.instants run.now).first < item.expires)
    (result : Except ApiError (Session × Text)) :
    TicketInv LaunchTicket.expires (fun _ => ()) TICKET_TTL (pace.instants run.now).last tokens
      (run.secrets.launch.erase ticket) (run.log.filterMap as_launch)
      ((run.log ++ events result fun session =>
        .granted ticket session.1.id (pace.instants run.now).first).filterMap as_grant) := by
  have hfirst := h.launch.pass (pace.first_le run.now) (List.Subset.refl _)
  have hlast := (pace.instants run.now).ordered
  cases result with
  | error error =>
    rw [filterMap_events_error]
    exact (hfirst.drop ticket).pass hlast hknown
  | ok session =>
    rw [filterMap_events_ok (k := as_grant) session rfl]
    exact (hfirst.use hlookup hlive).pass hlast hknown

theorem AuthInv.step_launch (h : AuthInv run) (hnext : run.next auth label = some run') :
    TicketInv LaunchTicket.expires (fun _ => ()) TICKET_TTL run'.now run'.tokens
      run'.secrets.launch (run'.log.filterMap as_launch) (run'.log.filterMap as_grant) ∧
    run'.secrets.launch.entries.length ≤ MAX_TICKETS := by
  obtain ⟨hnow, hknown⟩ := step_monotone hnext
  have hpassed := h.launch.pass hnow hknown
  cases label with
  | pass span =>
    obtain rfl := Option.some.inj hnext
    exact ⟨hpassed, h.launch_bound⟩
  | launch_url pace ticket =>
    obtain ⟨hfresh, hnext⟩ := Option.ite_none_left_eq_some.mp hnext
    obtain rfl := Option.some.inj hnext
    dsimp only at hpassed hnow ⊢
    have hpruned := run.secrets.launch.length_retain_le fun key item =>
      item.expires > (pace.instants run.now).retain key
    rw [filterMap_events_none (k := as_grant) _ fun _ => rfl]
    rcases launch_url_cases auth run.secrets (pace.instants run.now) ticket with
      ⟨error, hcall⟩ | ⟨hless, url, hcall⟩
    · rw [hcall, filterMap_events_error]
      dsimp only
      exact ⟨hpassed.retain _, Nat.le_trans hpruned h.launch_bound⟩
    · rw [hcall]
      dsimp only
      rw [filterMap_events_ok (k := as_launch) url rfl]
      have hkept := (h.launch.pass hnow (List.Subset.refl _)).retain fun key item =>
        item.expires > (pace.instants run.now).retain key
      exact ⟨hkept.issue hfresh rfl, Nat.le_trans (AList.length_insert_le _ _ _) hless⟩
  | exchange pace headers ticket new_id csrf =>
    obtain ⟨_, hnext⟩ := Option.ite_none_left_eq_some.mp hnext
    obtain rfl := Option.some.inj hnext
    dsimp only at hpassed hknown ⊢
    have herased := run.secrets.launch.length_erase_le ticket
    rw [filterMap_events_none (k := as_launch) _ fun _ => rfl]
    rcases exchange_cases auth headers run.secrets (pace.instants run.now) ticket new_id csrf with
      ⟨error, hcall⟩ | ⟨error, hcall⟩ | ⟨item, hlookup, hlive, hcall⟩
    · rw [hcall, filterMap_events_error]
      exact ⟨hpassed, h.launch_bound⟩
    · rw [hcall, filterMap_events_error]
      exact ⟨hpassed.drop ticket, Nat.le_trans herased h.launch_bound⟩
    · obtain ⟨hlaunch, _, _⟩ := grant_frame auth headers
        { run.secrets with launch := run.secrets.launch.erase ticket } (pace.instants run.now)
        ⟨new_id, csrf, 0⟩ h.session_bound
      rw [hcall, hlaunch]
      exact ⟨h.grant_launch hknown hlookup hlive _, Nat.le_trans herased h.launch_bound⟩
  | require pace headers mutation =>
    obtain rfl := Option.some.inj hnext
    obtain ⟨hlaunch, _, _⟩ := require_frame auth headers run.secrets (pace.instants run.now) mutation
    dsimp only at hpassed ⊢
    rw [hlaunch]
    exact ⟨hpassed, h.launch_bound⟩
  | issue_terminal pace browser session_id generation ticket =>
    obtain ⟨_, hnext⟩ := Option.ite_none_left_eq_some.mp hnext
    obtain rfl := Option.some.inj hnext
    obtain ⟨hlaunch, _⟩ := issue_terminal_frame run.secrets (pace.instants run.now) browser session_id
      generation ticket
    dsimp only at hpassed ⊢
    rw [hlaunch, filterMap_events_none (k := as_launch) _ fun _ => rfl,
      filterMap_events_none (k := as_grant) _ fun _ => rfl]
    exact ⟨hpassed, h.launch_bound⟩
  | claim_session pace headers ticket =>
    obtain rfl := Option.some.inj hnext
    obtain ⟨hlaunch, _, _⟩ := claim_session_frame auth headers run.secrets (pace.instants run.now)
    dsimp only at hpassed ⊢
    rw [hlaunch]
    exact ⟨hpassed, h.launch_bound⟩
  | claim_ticket pace index =>
    obtain ⟨claim, _, rfl⟩ := Option.map_eq_some_iff.mp hnext
    dsimp only at hpassed ⊢
    rw [claim_ticket_frame, filterMap_events_none (k := as_launch) _ fun _ => rfl,
      filterMap_events_none (k := as_grant) _ fun _ => rfl]
    exact ⟨hpassed, h.launch_bound⟩

theorem exchange_frame (auth : Auth) (headers : Headers) (secrets : Secrets) (clock : Instants)
    (ticket id csrf : Text) (hbound : secrets.sessions.entries.length ≤ MAX_SESSIONS) :
    (exchange auth headers secrets clock ticket id csrf).2.terminals = secrets.terminals ∧
      (exchange auth headers secrets clock ticket id csrf).2.sessions.entries.length ≤ MAX_SESSIONS := by
  rcases exchange_cases auth headers secrets clock ticket id csrf with
    ⟨error, hcall⟩ | ⟨error, hcall⟩ | ⟨item, _, _, hcall⟩
  · rw [hcall]
    exact ⟨rfl, hbound⟩
  · rw [hcall]
    exact ⟨rfl, hbound⟩
  · rw [hcall]
    exact (grant_frame auth headers { secrets with launch := secrets.launch.erase ticket } clock
      ⟨id, csrf, 0⟩ hbound).2

/-- The terminal tickets after a claim or its failure. -/
theorem AuthInv.claim_terminals (h : AuthInv run) {pace : Pace} {claim : PendingClaim} :
    TicketInv TerminalTicket.expires TerminalTicket.browser_id TICKET_TTL (pace.instants run.now).last
      run.tokens (run.secrets.terminals.erase claim.ticket) (run.log.filterMap as_issue)
      ((run.log ++ events
        (claim_ticket run.secrets (pace.instants run.now) claim.session claim.ticket).1 fun _ =>
          .claimed claim.ticket claim.session.id (pace.instants run.now).first).filterMap as_claim) := by
  have hfirst := h.terminals.pass (pace.first_le run.now) (List.Subset.refl _)
  have hlast := (pace.instants run.now).ordered
  rcases claim_ticket_cases run.secrets (pace.instants run.now) claim.session claim.ticket with
    ⟨error, hcall⟩ | ⟨item, hlookup, hlive, hbrowser, hcall⟩
  · rw [hcall, filterMap_events_error]
    exact (hfirst.drop claim.ticket).pass hlast (List.Subset.refl _)
  · rw [hcall]
    dsimp only
    rw [filterMap_events_ok (k := as_claim) item rfl, ← hbrowser]
    exact (hfirst.use hlookup hlive).pass hlast (List.Subset.refl _)

theorem AuthInv.step_terminals (h : AuthInv run) (hnext : run.next auth label = some run') :
    TicketInv TerminalTicket.expires TerminalTicket.browser_id TICKET_TTL run'.now run'.tokens
      run'.secrets.terminals (run'.log.filterMap as_issue) (run'.log.filterMap as_claim) ∧
    run'.secrets.terminals.entries.length ≤ MAX_TICKETS := by
  obtain ⟨hnow, hknown⟩ := step_monotone hnext
  have hpassed := h.terminals.pass hnow hknown
  cases label with
  | pass span =>
    obtain rfl := Option.some.inj hnext
    exact ⟨hpassed, h.terminal_bound⟩
  | launch_url pace ticket =>
    obtain ⟨_, hnext⟩ := Option.ite_none_left_eq_some.mp hnext
    obtain rfl := Option.some.inj hnext
    obtain ⟨_, hterminals⟩ := launch_url_frame auth run.secrets (pace.instants run.now) ticket
    dsimp only at hpassed ⊢
    rw [hterminals, filterMap_events_none (k := as_issue) _ fun _ => rfl,
      filterMap_events_none (k := as_claim) _ fun _ => rfl]
    exact ⟨hpassed, h.terminal_bound⟩
  | exchange pace headers ticket new_id csrf =>
    obtain ⟨_, hnext⟩ := Option.ite_none_left_eq_some.mp hnext
    obtain rfl := Option.some.inj hnext
    obtain ⟨hterminals, _⟩ := exchange_frame auth headers run.secrets (pace.instants run.now) ticket
      new_id csrf h.session_bound
    dsimp only at hpassed ⊢
    rw [hterminals, filterMap_events_none (k := as_issue) _ fun _ => rfl,
      filterMap_events_none (k := as_claim) _ fun _ => rfl]
    exact ⟨hpassed, h.terminal_bound⟩
  | require pace headers mutation =>
    obtain rfl := Option.some.inj hnext
    obtain ⟨_, hterminals, _⟩ := require_frame auth headers run.secrets (pace.instants run.now) mutation
    dsimp only at hpassed ⊢
    rw [hterminals]
    exact ⟨hpassed, h.terminal_bound⟩
  | issue_terminal pace browser session_id generation ticket =>
    obtain ⟨hfresh, hnext⟩ := Option.ite_none_left_eq_some.mp hnext
    obtain rfl := Option.some.inj hnext
    dsimp only at hpassed hnow ⊢
    have hpruned := run.secrets.terminals.length_retain_le fun key item =>
      item.expires > (pace.instants run.now).retain key
    rw [filterMap_events_none (k := as_claim) _ fun _ => rfl]
    rcases issue_terminal_cases run.secrets (pace.instants run.now) browser session_id generation
      ticket with ⟨error, hcall⟩ | ⟨hless, hcall⟩
    · rw [hcall, filterMap_events_error]
      dsimp only
      exact ⟨hpassed.retain _, Nat.le_trans hpruned h.terminal_bound⟩
    · rw [hcall]
      dsimp only
      rw [filterMap_events_ok (k := as_issue) ticket rfl]
      have hkept := (h.terminals.pass hnow (List.Subset.refl _)).retain fun key item =>
        item.expires > (pace.instants run.now).retain key
      exact ⟨hkept.issue hfresh rfl, Nat.le_trans (AList.length_insert_le _ _ _) hless⟩
  | claim_session pace headers ticket =>
    obtain rfl := Option.some.inj hnext
    obtain ⟨_, hterminals, _⟩ := claim_session_frame auth headers run.secrets (pace.instants run.now)
    dsimp only at hpassed ⊢
    rw [hterminals]
    exact ⟨hpassed, h.terminal_bound⟩
  | claim_ticket pace index =>
    obtain ⟨claim, _, rfl⟩ := Option.map_eq_some_iff.mp hnext
    have herased := run.secrets.terminals.length_erase_le claim.ticket
    dsimp only at hpassed ⊢
    rw [filterMap_events_none (k := as_issue) _ fun _ => rfl]
    rw [claim_ticket_frame]
    exact ⟨h.claim_terminals, Nat.le_trans herased h.terminal_bound⟩

theorem AuthInv.step_bound (h : AuthInv run) (hnext : run.next auth label = some run') :
    run'.secrets.sessions.entries.length ≤ MAX_SESSIONS := by
  cases label with
  | pass span =>
    obtain rfl := Option.some.inj hnext
    exact h.session_bound
  | launch_url pace ticket =>
    obtain ⟨_, hnext⟩ := Option.ite_none_left_eq_some.mp hnext
    obtain rfl := Option.some.inj hnext
    dsimp only
    rw [(launch_url_frame auth run.secrets (pace.instants run.now) ticket).1]
    exact h.session_bound
  | exchange pace headers ticket new_id csrf =>
    obtain ⟨_, hnext⟩ := Option.ite_none_left_eq_some.mp hnext
    obtain rfl := Option.some.inj hnext
    exact (exchange_frame auth headers run.secrets (pace.instants run.now) ticket new_id csrf
      h.session_bound).2
  | require pace headers mutation =>
    obtain rfl := Option.some.inj hnext
    dsimp only
    rw [(require_frame auth headers run.secrets (pace.instants run.now) mutation).2.2]
    exact h.session_bound
  | issue_terminal pace browser session_id generation ticket =>
    obtain ⟨_, hnext⟩ := Option.ite_none_left_eq_some.mp hnext
    obtain rfl := Option.some.inj hnext
    dsimp only
    rw [(issue_terminal_frame run.secrets (pace.instants run.now) browser session_id generation
      ticket).2]
    exact h.session_bound
  | claim_session pace headers ticket =>
    obtain rfl := Option.some.inj hnext
    dsimp only
    rw [(claim_session_frame auth headers run.secrets (pace.instants run.now)).2.2]
    exact h.session_bound
  | claim_ticket pace index =>
    obtain ⟨claim, _, rfl⟩ := Option.map_eq_some_iff.mp hnext
    dsimp only
    rw [claim_ticket_frame]
    exact h.session_bound

theorem mem_events {α : Type} {result : Except ApiError α} {event : α → AuthEvent} {item : AuthEvent}
    (h : item ∈ events result event) : ∃ value, result = .ok value ∧ item = event value := by
  cases result with
  | error error => exact absurd h List.not_mem_nil
  | ok value => exact ⟨value, rfl, List.mem_singleton.mp h⟩

/-- An old event, or one of the call. -/
theorem mem_log_events {α : Type} {log : List AuthEvent} {result : Except ApiError α}
    {event : α → AuthEvent} {item : AuthEvent} (h : item ∈ log ++ events result event)
    (hother : ∀ value, item ≠ event value) : item ∈ log := by
  rcases List.mem_append.mp h with hold | hnew
  · exact hold
  · obtain ⟨value, _, hitem⟩ := mem_events hnew
    exact absurd hitem (hother value)

theorem AuthInv.exchange_id (h : AuthInv run) {clock : Instants} {ticket new_id csrf : Text}
    {session : Session × Text}
    (hok : (exchange auth headers run.secrets clock ticket new_id csrf).1 = .ok session) :
    session.1.id ∈ run.tokens ∨ session.1.id = new_id := by
  rcases exchange_cases auth headers run.secrets clock ticket new_id csrf with
    ⟨error, hcall⟩ | ⟨error, hcall⟩ | ⟨item, _, _, hcall⟩
  · rw [hcall] at hok
    nomatch hok
  · rw [hcall] at hok
    nomatch hok
  · rw [hcall] at hok
    have hids : ∀ id session, ({ run.secrets with
        launch := run.secrets.launch.erase ticket } : Secrets).sessions.lookup id = some session →
          session.id = id := fun id session hlookup => (h.session id session hlookup).1
    rcases grant_id hids hok with ⟨stored, hstored⟩ | hnew
    · exact .inl (h.session session.1.id stored hstored).2
    · exact .inr hnew

theorem AuthInv.step_granted (h : AuthInv run) (hnext : run.next auth label = some run')
    (ticket id : Text) (instant : Nat) (hmem : .granted ticket id instant ∈ run'.log) :
    id ∈ run'.tokens := by
  have hknown := (step_monotone hnext).2
  have hbefore : .granted ticket id instant ∈ run.log → id ∈ run'.tokens :=
    fun hold => hknown (h.granted ticket id instant hold)
  cases label with
  | pass span =>
    obtain rfl := Option.some.inj hnext
    exact hbefore hmem
  | launch_url pace launch =>
    obtain ⟨_, hnext⟩ := Option.ite_none_left_eq_some.mp hnext
    obtain rfl := Option.some.inj hnext
    exact hbefore (mem_log_events hmem fun _ hsame => nomatch hsame)
  | exchange pace headers used new_id csrf =>
    obtain ⟨_, hnext⟩ := Option.ite_none_left_eq_some.mp hnext
    obtain rfl := Option.some.inj hnext
    rcases List.mem_append.mp hmem with hold | hnew
    · exact hbefore hold
    · obtain ⟨session, hok, hitem⟩ := mem_events hnew
      obtain ⟨_, rfl, _⟩ := AuthEvent.granted.inj hitem
      rcases h.exchange_id hok with hid | hid
      · exact hknown hid
      · rw [hid]
        exact List.mem_cons_self
  | require pace headers mutation =>
    obtain rfl := Option.some.inj hnext
    exact hbefore hmem
  | issue_terminal pace browser session_id generation issue =>
    obtain ⟨_, hnext⟩ := Option.ite_none_left_eq_some.mp hnext
    obtain rfl := Option.some.inj hnext
    exact hbefore (mem_log_events hmem fun _ hsame => nomatch hsame)
  | claim_session pace headers claim =>
    obtain rfl := Option.some.inj hnext
    exact hbefore hmem
  | claim_ticket pace index =>
    obtain ⟨claim, _, rfl⟩ := Option.map_eq_some_iff.mp hnext
    exact hbefore (mem_log_events hmem fun _ hsame => nomatch hsame)

theorem AuthInv.step (h : AuthInv run) (hnext : run.next auth label = some run') : AuthInv run' where
  launch := (h.step_launch hnext).1
  terminals := (h.step_terminals hnext).1
  session := h.step_session hnext
  granted := h.step_granted hnext
  launch_bound := (h.step_launch hnext).2
  terminal_bound := (h.step_terminals hnext).2
  session_bound := h.step_bound hnext

theorem reachable_authInv {ok : AuthRun → AuthLabel → Prop}
    (h : (auth_machine auth).ReachableWhen ok run) : AuthInv run := by
  apply h.invariant
  · intro _ hinit
    obtain ⟨now, rfl⟩ := hinit
    exact authInv_start now
  · intro _ _ _ hinv _ hnext
    exact hinv.step hnext

/-! ### What holds in every run -/

theorem as_grant_mem {log : List AuthEvent} {ticket session : Text} {instant : Nat}
    (h : .granted ticket session instant ∈ log) : (ticket, (), instant) ∈ log.filterMap as_grant :=
  List.mem_filterMap.mpr ⟨_, h, rfl⟩

theorem of_as_launch_mem {log : List AuthEvent} {ticket : Text} {instant : Nat}
    (h : (ticket, (), instant) ∈ log.filterMap as_launch) : .launched ticket instant ∈ log := by
  obtain ⟨event, hmem, hevent⟩ := List.mem_filterMap.mp h
  cases event with
  | launched other other_instant =>
    obtain ⟨rfl, hrest⟩ := Prod.mk.inj (Option.some.inj hevent)
    obtain ⟨_, rfl⟩ := Prod.mk.inj hrest
    exact hmem
  | granted | issued | claimed => nomatch hevent

theorem of_as_issue_mem {log : List AuthEvent} {ticket browser : Text} {instant : Nat}
    (h : (ticket, browser, instant) ∈ log.filterMap as_issue) :
    .issued ticket browser instant ∈ log := by
  obtain ⟨event, hmem, hevent⟩ := List.mem_filterMap.mp h
  cases event with
  | issued other other_browser other_instant =>
    obtain ⟨rfl, hrest⟩ := Prod.mk.inj (Option.some.inj hevent)
    obtain ⟨rfl, rfl⟩ := Prod.mk.inj hrest
    exact hmem
  | launched | granted | claimed => nomatch hevent

/-- A mutation needs the host, an allowed origin, the cookie of a live
    session and its token. -/
theorem AuthInv.mutation (h : AuthInv run) {session : Session}
    (hok : (require auth headers run.secrets clock true).1 = .ok session) :
    headers.text "host" = some auth.authority ∧ Allowed auth headers ∧
      cookie_id auth headers = some session.id ∧
      headers.text "x-remotedeck-csrf" = some session.csrf ∧
      ∃ stored, run.secrets.sessions.lookup session.id = some stored ∧
        stored.csrf = session.csrf ∧ clock.first < stored.expires := by
  rcases require_cases auth headers run.secrets clock true with
    ⟨error, hcall⟩ | ⟨id, stored, hhost, horigin, hid, hlookup, hlive, hcsrf, hcall⟩
  · rw [hcall] at hok
    nomatch hok
  · rw [hcall] at hok
    obtain rfl := Except.ok.inj hok
    have hstored := (h.session id stored hlookup).1
    dsimp only
    rw [hstored]
    exact ⟨check_host_ok hhost, check_origin_ok horigin, hid, hcsrf rfl, stored, hlookup, rfl, hlive⟩

/-- A grant to a browser whose session is live is of that session. -/
theorem exchange_keeps {ticket id csrf browser : Text} {granted : Session × Text} {stored : Session}
    (hcookie : cookie_id auth headers = some browser)
    (hlookup : secrets.sessions.lookup browser = some stored)
    (hlive : clock.retain browser < stored.expires)
    (hok : (exchange auth headers secrets clock ticket id csrf).1 = .ok granted) :
    granted.1.id = stored.id ∧ granted.1.csrf = stored.csrf := by
  rcases exchange_cases auth headers secrets clock ticket id csrf with
    ⟨error, hcall⟩ | ⟨error, hcall⟩ | ⟨item, _, _, hcall⟩
  · rw [hcall] at hok
    nomatch hok
  · rw [hcall] at hok
    nomatch hok
  · rw [hcall] at hok
    rcases grant_cases auth headers { secrets with launch := secrets.launch.erase ticket } clock
        ⟨id, csrf, 0⟩ with
      ⟨other, existing, hother, hexisting, _, _, hgrant⟩ | ⟨hnone, _⟩
    · rw [hgrant] at hok
      obtain rfl := Option.some.inj (hcookie.symm.trans hother)
      obtain rfl := Option.some.inj (hlookup.symm.trans hexisting)
      obtain rfl := Except.ok.inj hok
      exact ⟨rfl, rfl⟩
    · exact absurd hlive (Nat.not_lt.mpr (hnone browser stored hcookie hlookup))

/-- A known session that is not live is not live in any later state. -/
theorem expired_stays {run run' : AuthRun} (hrun : (auth_machine auth).StepsWhen (fun _ _ => True) run run')
    (hid : id ∈ run.tokens) (hdead : live run.secrets id run.now = false) :
    live run'.secrets id run'.now = false := by
  have hboth : id ∈ run'.tokens ∧ live run'.secrets id run'.now = false := by
    apply hrun.preserves _ ⟨hid, hdead⟩
    intro state label state' hstate _ hnext
    obtain ⟨hknown, hdead⟩ := hstate
    refine ⟨(step_monotone hnext).2 hknown, ?_⟩
    cases hlive : live state'.secrets id state'.now with
    | false => rfl
    | true =>
      rw [live_before hnext hknown hlive] at hdead
      nomatch hdead
  exact hboth.2

/-- **Authentication**, in every state that a run reaches. -/
theorem auth_holds {auth : Auth} {run : AuthRun} (h : (auth_machine auth).Reachable run) :
    -- a launch ticket gives one grant at most, within its lifetime
    ((run.log.filterMap as_grant).map Prod.fst).Nodup ∧
    (∀ ticket session instant, .granted ticket session instant ∈ run.log →
      ∃ start, .launched ticket start ∈ run.log ∧ start ≤ instant ∧ instant < start + TICKET_TTL) ∧
    -- what authorises a mutation
    (∀ headers clock session, (require auth headers run.secrets clock true).1 = .ok session →
      headers.text "host" = some auth.authority ∧ Allowed auth headers ∧
        cookie_id auth headers = some session.id ∧
        headers.text "x-remotedeck-csrf" = some session.csrf ∧
        ∃ stored, run.secrets.sessions.lookup session.id = some stored ∧
          stored.csrf = session.csrf ∧ clock.first < stored.expires) ∧
    -- a terminal ticket is claimed once at most, within its lifetime, by its browser
    ((run.log.filterMap as_claim).map Prod.fst).Nodup ∧
    (∀ ticket browser instant, .claimed ticket browser instant ∈ run.log →
      ∃ start, .issued ticket browser start ∈ run.log ∧ start ≤ instant ∧
        instant < start + TICKET_TTL) ∧
    -- a session that was granted and is not live stays so
    (∀ ticket id instant run', .granted ticket id instant ∈ run.log →
      live run.secrets id run.now = false →
      (auth_machine auth).StepsWhen (fun _ _ => True) run run' →
      live run'.secrets id run'.now = false) ∧
    -- the bounds
    run.secrets.sessions.entries.length ≤ 64 ∧ run.secrets.launch.entries.length ≤ 128 ∧
    run.secrets.terminals.entries.length ≤ 128 ∧
    -- a browser whose session is live keeps it at a launch
    ∀ headers clock ticket id csrf granted browser stored,
      (exchange auth headers run.secrets clock ticket id csrf).1 = .ok granted →
      cookie_id auth headers = some browser → run.secrets.sessions.lookup browser = some stored →
      clock.retain browser < stored.expires →
      granted.1.id = stored.id ∧ granted.1.csrf = stored.csrf := by
  have hinv := reachable_authInv h
  refine ⟨hinv.launch.once, ?_, ?_, hinv.terminals.once, ?_, ?_, hinv.session_bound,
    hinv.launch_bound, hinv.terminal_bound, ?_⟩
  · intro ticket session instant hmem
    obtain ⟨start, hstart, hbounds⟩ := hinv.launch.lifetime _ (as_grant_mem hmem)
    exact ⟨start, of_as_launch_mem hstart, hbounds⟩
  · intro headers clock session hok
    exact hinv.mutation hok
  · intro ticket browser instant hmem
    have hclaim : (ticket, browser, instant) ∈ run.log.filterMap as_claim :=
      List.mem_filterMap.mpr ⟨_, hmem, rfl⟩
    obtain ⟨start, hstart, hbounds⟩ := hinv.terminals.lifetime _ hclaim
    exact ⟨start, of_as_issue_mem hstart, hbounds⟩
  · intro ticket id instant run' hmem hdead hrun
    exact expired_stays hrun (hinv.granted ticket id instant hmem) hdead
  · intro headers clock ticket id csrf granted browser stored hok hcookie hlookup hlive
    exact exchange_keeps hcookie hlookup hlive hok

/-! ### A launch -/

def header (name value : String) : Text × List UInt8 :=
  (name.toList, value.toList.map fun c => UInt8.ofNat c.toNat)

def bound_headers : Headers :=
  [header "host" "127.0.0.1:43123", header "origin" "http://127.0.0.1:43123"]

def no_time : Pace := ⟨0, fun _ => 0, 0⟩

/-- A launch and its exchange. -/
theorem launch_grants : ∃ run, (auth_machine (.new 43123 none)).Reachable run ∧
    .granted "ticket".toList "session".toList 0 ∈ run.log ∧
    ((run.log.filterMap as_grant).map Prod.fst).Nodup := by
  have hreplay := Machine.reachable_of_replay (m := auth_machine (.new 43123 none))
    (fun _ _ => true) (fun _ _ _ => trivial) (s := .start 0) ⟨0, rfl⟩
    [.launch_url no_time "ticket".toList,
      .exchange no_time bound_headers "ticket".toList "session".toList "csrf".toList]
    (fun run => .granted "ticket".toList "session".toList 0 ∈ run.log) (by decide +kernel)
  obtain ⟨run, hreach, hgranted⟩ := hreplay
  exact ⟨run, hreach, of_decide_eq_true hgranted, (auth_holds hreach).1⟩

end Server
