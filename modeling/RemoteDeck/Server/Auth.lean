import RemoteDeck.Lib.Erasure
import RemoteDeck.Server.Operations

/-! # Authentication

    `auth.rs`: launch tickets, browser sessions and terminal tickets, each
    with the instant at which it expires, and the checks of the headers of
    a request.

    A section under the lock reads the clock several times: `Instants` are
    the readings of one section, of which those of `retain` differ from
    entry to entry.  `claim_terminal` has two sections.  A random token is
    part of the label, and none occurs twice.
-/

namespace Server

/-- `Duration::from_secs(30)` in nanoseconds. -/
def TICKET_TTL : Nat := 30 * 1000000000
/-- `Duration::from_secs(24 * 60 * 60)` in nanoseconds. -/
def SESSION_TTL : Nat := 24 * 60 * 60 * 1000000000
def MAX_SESSIONS : Nat := 64
def MAX_TICKETS : Nat := 128

/-! ### Headers -/

/-- The names of headers, in lower case, with their bytes. -/
abbrev Headers := List (Text × List UInt8)

/-- `HeaderValue::to_str`: only visible ASCII characters, blanks and tabs. -/
def to_str (value : List UInt8) : Option Text :=
  if value.all fun byte => byte = 9 || (32 ≤ byte && byte < 127) then
    some (value.map fun byte => Char.ofNat byte.toNat)
  else none

/-- The first header of a name, if it is a text. -/
def Headers.text (headers : Headers) (name : String) : Option Text :=
  (headers.lookup name.toList).bind to_str

/-- Bytes are compared in the code; a text has the same characters when it has the same bytes. -/
def constant_eq (left right : Text) : Bool :=
  if left.length ≠ right.length then false
  else (left.zip right).foldl (fun acc pair => acc ||| (pair.1.toNat ^^^ pair.2.toNat)) 0 = 0

/-! ### Secrets -/

structure Session where
  id : Text
  csrf : Text
  expires : Nat
  deriving DecidableEq, Repr

structure LaunchTicket where
  expires : Nat
  deriving DecidableEq, Repr

structure TerminalTicket where
  session_id : Text
  browser_id : Text
  generation : Nat
  expires : Nat
  deriving DecidableEq, Repr

structure Secrets where
  launch : AList fun _ : Text => LaunchTicket
  sessions : AList fun _ : Text => Session
  terminals : AList fun _ : Text => TerminalTicket

def Secrets.default : Secrets := ⟨∅, ∅, ∅⟩

structure Auth where
  authority : Text
  origin : Text
  cookie_name : Text
  dev_origin : Option Text
  deriving DecidableEq, Repr

/-- `Auth::new`. -/
def Auth.new (port : Nat) (dev_origin : Option Text) : Auth where
  authority := "127.0.0.1:".toList ++ port.text
  origin := "http://127.0.0.1:".toList ++ port.text
  cookie_name := "remotedeck_".toList ++ port.text
  dev_origin := dev_origin

/-- The readings of the clock in one section. -/
structure Instants where
  first : Nat
  retain : Text → Nat
  last : Nat
  first_le : ∀ key, first ≤ retain key
  le_last : ∀ key, retain key ≤ last

/-! ### Checks -/

section
variable (auth : Auth) (headers : Headers)

def check_host : Except ApiError Unit :=
  if headers.text "host" ≠ some auth.authority then
    .error (api_error 403 "invalid_host" "Only the bound loopback host is accepted.")
  else .ok ()

def check_origin (required : Bool) : Except ApiError Unit :=
  match headers.text "origin" with
  | some origin =>
      if origin = auth.origin ∨ auth.dev_origin = some origin then .ok ()
      else .error (api_error 403 "invalid_origin" "This request did not originate from RemoteDeck.")
  | none =>
      if required then
        .error (api_error 403 "invalid_origin" "This request did not originate from RemoteDeck.")
      else .ok ()

def cookie_id : Option Text :=
  (headers.text "cookie").bind fun cookies =>
    (((cookies.split ';').filterMap fun part => part.trim.split_once '=').find? fun pair =>
      pair.1 = auth.cookie_name).map Prod.snd

def session_cookie (session : Session) : Text :=
  auth.cookie_name ++ "=".toList ++ session.id ++ "; HttpOnly; SameSite=Strict; Path=/".toList

/-! ### The operations -/

variable (secrets : Secrets) (clock : Instants)

def launch_url (ticket : Text) : Except ApiError Text × Secrets :=
  let launch := secrets.launch.retain fun key item => item.expires > clock.retain key
  if launch.entries.length ≥ MAX_TICKETS then
    (.error (api_error 429 "ticket_limit" "Too many pending browser launches."),
      { secrets with launch := launch })
  else
    let origin := auth.dev_origin.getD auth.origin
    (.ok (origin ++ "/#ticket=".toList ++ ticket),
      { secrets with launch := launch.insert ticket ⟨clock.last + TICKET_TTL⟩ })

/-- The part of `exchange` after a valid ticket. -/
def grant (new_session : Session) : Except ApiError (Session × Text) × Secrets :=
  let sessions := secrets.sessions.retain fun key item => item.expires > clock.retain key
  match (cookie_id auth headers).bind fun id => (sessions.lookup id).map fun session => (id, session) with
  | some (id, existing) =>
      let session := { existing with expires := clock.last + SESSION_TTL }
      (.ok (session, session_cookie auth session),
        { secrets with sessions := sessions.insert id session })
  | none =>
      if sessions.entries.length ≥ MAX_SESSIONS then
        (.error (api_error 429 "session_limit" "Too many browser sessions."),
          { secrets with sessions := sessions })
      else
        let session := { new_session with expires := clock.last + SESSION_TTL }
        (.ok (session, session_cookie auth session),
          { secrets with sessions := sessions.insert session.id session })

def exchange (ticket id csrf : Text) : Except ApiError (Session × Text) × Secrets :=
  match check_host auth headers, check_origin auth headers true with
  | .error error, _ => (.error error, secrets)
  | .ok _, .error error => (.error error, secrets)
  | .ok _, .ok _ =>
      let removed := { secrets with launch := secrets.launch.erase ticket }
      if (secrets.launch.lookup ticket).any fun item => item.expires > clock.first then
        grant auth headers removed clock ⟨id, csrf, 0⟩
      else
        (.error (api_error 401 "invalid_ticket"
          "The launch link expired or was already used. Open RemoteDeck again."), removed)

def require (mutation : Bool) : Except ApiError Session × Secrets :=
  match check_host auth headers, check_origin auth headers mutation with
  | .error error, _ => (.error error, secrets)
  | .ok _, .error error => (.error error, secrets)
  | .ok _, .ok _ =>
      match cookie_id auth headers with
      | none =>
          (.error (api_error 401 "session_required"
            "Open RemoteDeck from its shortcut to authorize this browser."), secrets)
      | some id =>
          match (secrets.sessions.lookup id).filter fun session => session.expires > clock.first with
          | none =>
              (.error (api_error 401 "session_expired"
                "The browser session expired. Open RemoteDeck again."), secrets)
          | some session =>
              if mutation && !(headers.text "x-remotedeck-csrf").any fun csrf =>
                  constant_eq csrf session.csrf then
                (.error (api_error 403 "invalid_csrf"
                  "The request is missing its session-bound CSRF token."), secrets)
              else
                let session := { session with expires := clock.last + SESSION_TTL }
                (.ok session, { secrets with sessions := secrets.sessions.insert id session })

def live (session : Text) (now : Nat) : Bool :=
  (secrets.sessions.lookup session).any fun session => session.expires > now

def issue_terminal (browser : Session) (session_id : Text) (generation : Nat) (ticket : Text) :
    Except ApiError Text × Secrets :=
  let terminals := secrets.terminals.retain fun key item => item.expires > clock.retain key
  if terminals.entries.length ≥ MAX_TICKETS then
    (.error (api_error 429 "ticket_limit" "Too many pending terminal attachments."),
      { secrets with terminals := terminals })
  else
    (.ok ticket,
      { secrets with
        terminals := terminals.insert ticket
          { session_id := session_id
            browser_id := browser.id
            generation := generation
            expires := clock.last + TICKET_TTL } })

/-- The first section of `claim_terminal`. -/
def claim_session : Except ApiError Session × Secrets :=
  match check_origin auth headers true with
  | .error error => (.error error, secrets)
  | .ok _ => require auth headers secrets clock false

/-- The second section of `claim_terminal`. -/
def claim_ticket (session : Session) (ticket : Text) : Except ApiError TerminalTicket × Secrets :=
  let removed := { secrets with terminals := secrets.terminals.erase ticket }
  match (secrets.terminals.lookup ticket).filter fun item =>
      item.expires > clock.first && item.browser_id = session.id with
  | some item => (.ok item, removed)
  | none =>
      (.error (api_error 401 "invalid_terminal_ticket"
        "The terminal ticket expired or was already used."), removed)

end

/-! ### Runs -/

/-- How the clock goes on in a section: nothing is read before `wait`, and
    all readings are within `span` of the first. -/
structure Pace where
  wait : Nat
  delay : Text → Nat
  span : Nat

def Pace.instants (pace : Pace) (now : Nat) : Instants where
  first := now + pace.wait
  retain := fun key => now + pace.wait + min (pace.delay key) pace.span
  last := now + pace.wait + pace.span
  first_le := fun _ => Nat.le_add_right _ _
  le_last := fun _ => Nat.add_le_add_left (Nat.min_le_right _ _) _

/-- What a run gives out and takes back. -/
inductive AuthEvent where
  | launched (ticket : Text) (instant : Nat)
  | granted (ticket session : Text) (instant : Nat)
  | issued (ticket browser : Text) (instant : Nat)
  | claimed (ticket browser : Text) (instant : Nat)
  deriving DecidableEq, Repr

/-- A call of `claim_terminal` between its sections. -/
structure PendingClaim where
  session : Session
  ticket : Text
  deriving DecidableEq, Repr

structure AuthRun where
  secrets : Secrets
  now : Nat
  /-- The random tokens so far. -/
  tokens : List Text
  claims : List PendingClaim
  log : List AuthEvent

def AuthRun.start (now : Nat) : AuthRun := ⟨.default, now, [], [], []⟩

inductive AuthLabel where
  | pass (span : Nat)
  | launch_url (pace : Pace) (ticket : Text)
  | exchange (pace : Pace) (headers : Headers) (ticket id csrf : Text)
  | require (pace : Pace) (headers : Headers) (mutation : Bool)
  | issue_terminal (pace : Pace) (browser : Session) (session_id : Text) (generation : Nat)
      (ticket : Text)
  | claim_session (pace : Pace) (headers : Headers) (ticket : Text)
  | claim_ticket (pace : Pace) (index : Nat)

/-- The events of a call: some if it succeeds. -/
def events {α : Type} (result : Except ApiError α) (event : α → AuthEvent) : List AuthEvent :=
  match result with
  | .ok value => [event value]
  | .error _ => []

def AuthRun.next (auth : Auth) (run : AuthRun) : AuthLabel → Option AuthRun
  | .pass span => some { run with now := run.now + span }
  | .launch_url pace ticket =>
      if ticket ∈ run.tokens then none
      else
        let clock := pace.instants run.now
        let called := launch_url auth run.secrets clock ticket
        some
          { run with
            secrets := called.2
            now := clock.last
            tokens := ticket :: run.tokens
            log := run.log ++ events called.1 fun _ => .launched ticket clock.last }
  | .exchange pace headers ticket id csrf =>
      if id ∈ run.tokens ∨ csrf ∈ run.tokens ∨ id = csrf then none
      else
        let clock := pace.instants run.now
        let called := exchange auth headers run.secrets clock ticket id csrf
        some
          { run with
            secrets := called.2
            now := clock.last
            tokens := id :: csrf :: run.tokens
            log := run.log ++ events called.1 fun granted => .granted ticket granted.1.id clock.first }
  | .require pace headers mutation =>
      let clock := pace.instants run.now
      some
        { run with
          secrets := (require auth headers run.secrets clock mutation).2
          now := clock.last }
  | .issue_terminal pace browser session_id generation ticket =>
      if ticket ∈ run.tokens then none
      else
        let clock := pace.instants run.now
        let called := issue_terminal run.secrets clock browser session_id generation ticket
        some
          { run with
            secrets := called.2
            now := clock.last
            tokens := ticket :: run.tokens
            log := run.log ++ events called.1 fun _ => .issued ticket browser.id clock.last }
  | .claim_session pace headers ticket =>
      let clock := pace.instants run.now
      let called := claim_session auth headers run.secrets clock
      some
        { run with
          secrets := called.2
          now := clock.last
          claims :=
            match called.1 with
            | .ok session => ⟨session, ticket⟩ :: run.claims
            | .error _ => run.claims }
  | .claim_ticket pace index =>
      run.claims[index]?.map fun claim =>
        let clock := pace.instants run.now
        let called := claim_ticket run.secrets clock claim.session claim.ticket
        { run with
          secrets := called.2
          now := clock.last
          claims := run.claims.eraseIdx index
          log := run.log ++
            events called.1 fun _ => .claimed claim.ticket claim.session.id clock.first }

def auth_machine (auth : Auth) : Machine AuthRun AuthLabel where
  init := fun run => ∃ now, run = .start now
  next := AuthRun.next auth

end Server
