import RemoteDeck.Lib.Machine
import RemoteDeck.Ssh.Records
import RemoteDeck.Store.Invariant

/-! # Pin integrity of the known_hosts store

    In every run whose steps name ordinary endpoints (`Ordinary`), accepting
    and seeding add records for their endpoint and keep all others, a pinned
    key is never replaced, and removing deletes the named record
    (`known_hosts_pins_kept`).
-/

namespace Ssh

open Store (validate_host_draft)
open Text (rows rows_of IsWord)

variable {codec : KeyCodec}

/-! ### Endpoints -/

/-- A token that names one host: no list, no pattern, and not the start of a
    comment, a marker, a negation or a hash. -/
def names_one_host (token : Text) : Bool :=
  !token.any (fun c => c = ',' || c = '*' || c = '?') &&
    !token.head?.any fun c => c = '#' || c = '@' || c = '!' || c = '|'

/-- A token that gives a port. -/
def has_port (token : Text) : Bool := token.head? = some '[' && token.contains_text "]:".toList

/-- A token is for an endpoint when it names that one host, in any case, at
    that port. -/
def denotes (token host : Text) (port : UInt16) : Bool :=
  names_one_host token && token.eq_ignore_ascii_case (known_hosts_host_token host port) &&
    (port ≠ 22 || !has_port token)

/-! ### Hosts -/

/-- A host profile made from an accepted draft. -/
structure AcceptedHost where
  profile : HostProfile
  draft : HostDraft
  accepted : validate_host_draft draft = .ok ()
  hostname_eq : profile.hostname = draft.hostname.trim
  port_eq : profile.port = draft.port

def AcceptedHost.token (host : AcceptedHost) : Text :=
  known_hosts_host_token host.profile.hostname host.profile.port

/-- The record is for the endpoint of the host. -/
def AcceptedHost.owns (host : AcceptedHost) (record : TrustedHostKey) : Prop :=
  denotes record.host_token host.profile.hostname host.profile.port = true

theorem printable_digit {c : Char} (h : c.isDigit = true) :
    Text.is_whitespace c = false ∧ Text.is_control c = false := by
  simp only [Char.isDigit, Bool.and_eq_true, decide_eq_true_eq] at h
  have hlow : 48 ≤ c.toNat := UInt32.le_iff_toNat_le.mp h.1
  have hhigh : c.toNat ≤ 57 := UInt32.le_iff_toNat_le.mp h.2
  simp only [Text.is_whitespace, Text.is_control, Bool.or_eq_false_iff, Bool.and_eq_false_iff,
    decide_eq_false_iff_not]
  omega

theorem port_text_len (port : UInt16) : port.toNat.text.len ≤ 20 := by
  have hdigits : port.toNat.text.length ≤ 5 := by
    have hlt : port.toNat < 10 ^ 5 := lt_of_lt_of_le port.toNat_lt (by decide)
    exact (Nat.length_toDigits_le_iff (by decide) (by decide)).mpr hlt
  have hlen := Text.len_le port.toNat.text
  omega

/-- The token of an accepted host is valid. -/
theorem AcceptedHost.token_valid (host : AcceptedHost) : validate_host_token host.token = .ok () := by
  obtain ⟨⟨hne, hlen, _, hchars⟩, _⟩ := Store.validate_host_draft_endpoint host.accepted
  rw [← host.hostname_eq] at hne hlen hchars
  have hport := port_text_len host.profile.port
  simp only [validate_host_token, Outcome.ite_error_eq_ok, Bool.or_eq_true, not_or,
    List.isEmpty_iff, decide_eq_true_eq, and_true, not_lt, Bool.not_eq_true, unprintable,
    List.any_eq_false]
  unfold AcceptedHost.token known_hosts_host_token
  by_cases hstandard : host.profile.port = 22
  · rw [if_pos hstandard]
    exact ⟨⟨hne, by omega⟩, hchars⟩
  · rw [if_neg hstandard]
    refine ⟨⟨by simp, ?_⟩, ?_⟩
    · have hopen : Char.utf8Size '[' = 1 := rfl
      have hclose : Char.utf8Size ']' = 1 := rfl
      have hcolon : Char.utf8Size ':' = 1 := rfl
      simp only [List.cons_append, Text.len_cons, Text.len_append]
      omega
    · intro c hc
      simp only [List.cons_append, List.mem_cons, List.mem_append] at hc
      rcases hc with rfl | hc | rfl | rfl | hc
      · decide
      · exact hchars c hc
      · decide
      · decide
      · exact printable_digit (Nat.isDigit_of_mem_text hc)

/-! ### Operations -/

/-- A step of a client.  `accept_host_key` releases the lock for the scan, so
    it is two. -/
inductive Operation where
  | accept_look (host : AcceptedHost) (candidate : HostKeyCandidate)
  | accept_commit (host : AcceptedHost) (candidate : HostKeyCandidate)
      (current : AppResult (List HostKeyCandidate)) (replacement : Replacement)
  | seed (host : AcceptedHost) (sources : List (Text × AppResult SourceReport))
      (replacement : Replacement)
  | remove (host_token algorithm public_key_base64 : Text) (replacement : Replacement)

/-- The file after an operation. -/
def Operation.run (codec : KeyCodec) (file : KnownHostsFile) : Operation → KnownHostsFile
  | .accept_look _ _ => file
  | .accept_commit host candidate current replacement =>
      (accept_host_key_commit codec file host.profile candidate current replacement).1
  | .seed host sources replacement =>
      (seed_trusted_keys codec file host.profile sources replacement).1
  | .remove host_token algorithm public_key_base64 replacement =>
      (remove_trusted_key_record codec file host_token algorithm public_key_base64 replacement).1

/-- The file under the operations of clients. -/
def known_hosts (codec : KeyCodec) : Machine KnownHostsFile Operation where
  init := fun file => ∃ content trusted, file = some content ∧
    parse_trusted_keys codec content = .ok trusted
  next := fun file op => some (op.run codec file)

/-- The records that parsing and line matching report. -/
structure Reports (codec : KeyCodec) (content : Text) (trusted : List TrustedHostKey) : Prop where
  parsed : parse_trusted_keys codec content = .ok trusted
  matched : ∀ record ∈ trusted, ∃ line ∈ content.lines,
    line_matches_host_algorithm line record.host_token record.algorithm = true

theorem reports_of_parsed {content : Text} {trusted : List TrustedHostKey}
    (h : parse_trusted_keys codec content = .ok trusted) : Reports codec content trusted := by
  refine ⟨h, fun record hrecord => ?_⟩
  obtain ⟨_, htrusted, _⟩ := parse_trusted_keys_ok.mp h
  rw [htrusted] at hrecord
  obtain ⟨row, hrow, hrecord⟩ := List.mem_flatMap.mp hrecord
  rw [← Text.rows_of_lines, Text.mem_rows_of] at hrow
  obtain ⟨_, line, hline, rfl⟩ := hrow
  obtain ⟨hosts, rest, hfields, _, htoken, _⟩ := mem_row_records hrecord
  refine ⟨line, hline, ?_⟩
  unfold line_matches_host_algorithm
  rw [hfields]
  simpa using htoken

/-- The record that accepting a candidate adds. -/
def AcceptedHost.record (host : AcceptedHost) (candidate : HostKeyCandidate) : TrustedHostKey where
  host_token := host.token
  algorithm := candidate.algorithm
  public_key_base64 := candidate.public_key_base64
  sha256_fingerprint := candidate.sha256_fingerprint

/-- The file reports the records it reported and then the added ones, which
    are for the endpoint of the host, and no pinned key is contradicted. -/
structure Adds (codec : KeyCodec) (trusted : List TrustedHostKey) (host : AcceptedHost)
    (added : List TrustedHostKey) (file : KnownHostsFile) : Prop where
  reports : ∃ content, file = some content ∧ Reports codec content (trusted ++ added)
  owned : ∀ record ∈ added, host.owns record
  unpinned : ∀ record ∈ added, ∀ old ∈ trusted, host.owns old →
    old.algorithm = record.algorithm → old.public_key_base64 = record.public_key_base64

/-- What an operation does to the records of a file. -/
def Kept (codec : KeyCodec) (content : Text) (trusted : List TrustedHostKey) : Operation → Prop
  | .accept_look host candidate =>
      let result := accept_host_key_look codec (some content) host.profile candidate
      (result = .ok true → host.record candidate ∈ trusted) ∧
        -- accepting a trusted key again returns at once
        (check_candidate codec host.profile candidate = .ok host.token →
          content.len ≤ MAX_KNOWN_HOSTS_BYTES → host.record candidate ∈ trusted →
            result = .ok true)
  | .accept_commit host candidate current replacement =>
      let (file, result) :=
        accept_host_key_commit codec (some content) host.profile candidate current replacement
      (file = some content ∧ (result = .ok () → host.record candidate ∈ trusted)) ∨
        (Adds codec trusted host [host.record candidate] file ∧
          ∀ old ∈ trusted, host.owns old → old.algorithm ≠ candidate.algorithm) ∨
        (file = none ∧ ∃ error, result = .error error)
  | .seed host sources replacement =>
      let (file, result) := seed_trusted_keys codec (some content) host.profile sources replacement
      (file = some content ∧ ∀ outcome, result = .ok outcome → outcome.imported_records = 0) ∨
        (∃ records warnings,
          lookup_local_known_hosts_records codec host.token [] [] sources =
            .Records records warnings ∧
          Adds codec trusted host records file ∧
            ∀ outcome, result = .ok outcome → outcome.imported_records = records.length) ∨
        (file = none ∧ ∃ error, result = .error error)
  | .remove host_token algorithm public_key_base64 replacement =>
      let (file, result) := remove_trusted_key_record codec (some content) host_token algorithm
        public_key_base64 replacement
      let named : TrustedHostKey → Bool := TrustedHostKey.is_named host_token algorithm public_key_base64
      (file = some content ∧
          ∀ removed, result = .ok removed → removed = false ∧ ∀ record ∈ trusted, named record = false) ∨
        ((∃ content', file = some content' ∧
            Reports codec content' (trusted.filter fun record => !named record)) ∧
          ∀ removed, result = .ok removed → removed = true ∧ ∃ record ∈ trusted, named record = true) ∨
        (file = none ∧ ∃ error, result = .error error)

/-- The condition under which an operation meets an ordinary endpoint. -/
def Ordinary (codec : KeyCodec) (file : KnownHostsFile) (op : Operation) : Prop :=
  ∀ content trusted, file = some content → parse_trusted_keys codec content = .ok trusted →
    match op with
    | .accept_look _ _ => True
    | .accept_commit host candidate _ _ =>
        trust_decision trusted host.token candidate = .FirstUse →
          denotes host.token host.profile.hostname host.profile.port = true ∧
          trusted.length < MAX_KNOWN_HOST_RECORDS ∧
            -- the endpoint has one spelling
            ∀ old ∈ trusted, host.owns old → old.algorithm = candidate.algorithm →
              old.host_token = host.token
    | .seed host sources _ =>
        ∀ records warnings,
          lookup_local_known_hosts_records codec host.token [] [] sources =
            .Records records warnings →
          records ≠ [] → (∀ old ∈ trusted, old.host_token ≠ host.token) →
          denotes host.token host.profile.hostname host.profile.port = true ∧
            ∀ record ∈ records, ∀ old ∈ trusted, host.owns old →
              old.algorithm = record.algorithm → old.public_key_base64 = record.public_key_base64
    | .remove host_token algorithm public_key_base64 _ =>
        ∀ row ∈ rows content, RowStays host_token algorithm public_key_base64 row ∧
          (row_start row = some '#' → row_names host_token algorithm public_key_base64 row →
            ∃ record ∈ trusted,
              record.is_named host_token algorithm public_key_base64 = true)

/-! ### Accepting -/

section Accepting

variable {content token : Text} {trusted : List TrustedHostKey} {candidate : HostKeyCandidate}
variable {host : AcceptedHost}

theorem trust_decision_first_use : trust_decision trusted token candidate = .FirstUse ↔
    ∀ record ∈ trusted, record.host_token = token → record.algorithm ≠ candidate.algorithm := by
  have hempty : (trusted.filter fun record => record.host_token = token &&
      record.algorithm = candidate.algorithm) = [] ↔
      ∀ record ∈ trusted, record.host_token = token → record.algorithm ≠ candidate.algorithm := by
    simp [List.filter_eq_nil_iff]
  rw [← hempty, ← List.isEmpty_iff]
  unfold trust_decision
  dsimp only
  split
  case isTrue h => exact iff_of_true rfl h
  case isFalse h =>
    refine iff_of_false ?_ h
    split <;> simp

theorem trust_decision_already (h : trust_decision trusted token candidate = .AlreadyTrusted) :
    { host_token := token
      algorithm := candidate.algorithm
      public_key_base64 := candidate.public_key_base64
      sha256_fingerprint := candidate.sha256_fingerprint } ∈ trusted := by
  unfold trust_decision at h
  dsimp only at h
  split at h
  case isTrue => simp at h
  case isFalse =>
    split at h
    case isFalse => simp at h
    case isTrue hany =>
      obtain ⟨record, hrecord, hsame⟩ := List.any_eq_true.mp hany
      obtain ⟨hmem, htoken⟩ := List.mem_filter.mp hrecord
      simp only [Bool.and_eq_true, decide_eq_true_eq] at hsame htoken
      obtain ⟨⟨halgorithm, hkey⟩, hfingerprint⟩ := hsame
      rw [← htoken.1, ← halgorithm, ← hkey, ← hfingerprint]
      exact hmem

theorem trust_decision_of_mem (h : { host_token := token
                                     algorithm := candidate.algorithm
                                     public_key_base64 := candidate.public_key_base64
                                     sha256_fingerprint := candidate.sha256_fingerprint } ∈ trusted) :
    trust_decision trusted token candidate = .AlreadyTrusted := by
  have hmem : _ ∈ trusted.filter fun record => record.host_token = token &&
      record.algorithm = candidate.algorithm := List.mem_filter.mpr ⟨h, by simp⟩
  unfold trust_decision
  dsimp only
  have hne : ¬ (trusted.filter fun record => record.host_token = token &&
      record.algorithm = candidate.algorithm).isEmpty = true := by
    rw [List.isEmpty_iff]
    exact List.ne_nil_of_mem hmem
  rw [if_neg hne, if_pos]
  exact List.any_eq_true.mpr ⟨_, hmem, by simp⟩

/-- Looking a candidate up in a readable file. -/
theorem look_up_candidate_ok {first_use : Option Text}
    (hparse : parse_trusted_keys codec content = .ok trusted) :
    look_up_candidate codec (some content) token candidate = .ok first_use ↔
      content.len ≤ MAX_KNOWN_HOSTS_BYTES ∧
        ((trust_decision trusted token candidate = .AlreadyTrusted ∧ first_use = none) ∨
          (trust_decision trusted token candidate = .FirstUse ∧ first_use = some content)) := by
  unfold look_up_candidate read_known_hosts
  simp only [Outcome.bind_eq_ok, Outcome.ite_error_eq_ok, Except.ok.injEq, not_lt]
  constructor
  · rintro ⟨_, ⟨hlen, rfl⟩, found, hfound, h⟩
    obtain rfl : trusted = found := Except.ok.inj (hparse.symm.trans hfound)
    refine ⟨hlen, ?_⟩
    cases hdecision : trust_decision trusted token candidate with
    | AlreadyTrusted =>
      rw [hdecision] at h
      exact .inl ⟨rfl, (Except.ok.inj h).symm⟩
    | FirstUse =>
      rw [hdecision] at h
      exact .inr ⟨rfl, (Except.ok.inj h).symm⟩
    | Changed =>
      rw [hdecision] at h
      exact absurd h (by simp)
  · rintro ⟨hlen, h⟩
    refine ⟨content, ⟨hlen, rfl⟩, trusted, hparse, ?_⟩
    rcases h with ⟨hdecision, rfl⟩ | ⟨hdecision, rfl⟩
    · rw [hdecision]
    · rw [hdecision]

theorem check_candidate_ok {profile : HostProfile}
    (h : check_candidate codec profile candidate = .ok token) :
    token = known_hosts_host_token profile.hostname profile.port ∧
      validate_host_key_fields candidate.algorithm candidate.public_key_base64 = .ok () ∧
      fingerprint_public_key codec candidate.public_key_base64 = .ok candidate.sha256_fingerprint := by
  simp only [check_candidate, Outcome.bind_eq_ok, Outcome.ite_error_eq_ok, not_not,
    Except.ok.injEq] at h
  obtain ⟨_, hfields, _, hfingerprint, rfl, _, rfl⟩ := h
  exact ⟨rfl, hfields, hfingerprint⟩

theorem accept_look_kept (hparse : parse_trusted_keys codec content = .ok trusted) :
    Kept codec content trusted (.accept_look host candidate) := by
  refine ⟨fun hresult => ?_, fun hcheck hlen hmem => ?_⟩
  · simp only [accept_host_key_look, Outcome.bind_eq_ok, Except.ok.injEq] at hresult
    obtain ⟨token, hcheck, first_use, hlook, hnone⟩ := hresult
    obtain ⟨rfl, _, _⟩ := check_candidate_ok hcheck
    rcases ((look_up_candidate_ok hparse).mp hlook).2 with ⟨hdecision, _⟩ | ⟨_, rfl⟩
    · exact trust_decision_already hdecision
    · simp at hnone
  · have hlook := (look_up_candidate_ok hparse).mpr
      ⟨hlen, .inl ⟨trust_decision_of_mem hmem, rfl⟩⟩
    simp only [accept_host_key_look, hcheck, Outcome.ok_bind]
    rw [hlook]
    rfl

/-- The file after a write: written, as it was, or lost. -/
theorem atomic_write_text_cases (replacement : Replacement) (file : KnownHostsFile) (text : Text) :
    (atomic_write_text replacement file text).1 = some text ∨
      ((atomic_write_text replacement file text).1 = file ∧
        ∃ error, (atomic_write_text replacement file text).2 = .error error) ∨
      ((atomic_write_text replacement file text).1 = none ∧
        ∃ error, (atomic_write_text replacement file text).2 = .error error) := by
  unfold atomic_write_text
  split
  · exact .inr (.inl ⟨rfl, _, rfl⟩)
  · cases replacement with
    | replaced => exact .inl rfl
    | unsynced error => exact .inl rfl
    | kept error => exact .inr (.inl ⟨rfl, error, rfl⟩)
    | lost error => exact .inr (.inr ⟨rfl, error, rfl⟩)

theorem denotes_plain {name : Text} {port : UInt16} (h : denotes token name port = true) :
    ',' ∉ token ∧ token.head? ≠ some '#' ∧ token.head? ≠ some '@' := by
  simp only [denotes, names_one_host, Bool.and_eq_true, Bool.not_eq_true'] at h
  obtain ⟨⟨⟨hchars, hhead⟩, _⟩, _⟩ := h
  refine ⟨fun hcomma => ?_, fun hhash => ?_, fun hat => ?_⟩
  · exact absurd (List.any_eq_false.mp hchars _ hcomma) (by decide)
  · simp [hhash] at hhead
  · simp [hat] at hhead

/-- The row of a plain token reports one record. -/
theorem plain_row {name : Text} {port : UInt16} {algorithm key fingerprint : Text}
    (hplain : denotes token name port = true) (htoken : validate_host_token token = .ok ())
    (hfields : validate_host_key_fields algorithm key = .ok ())
    (hfingerprint : fingerprint_public_key codec key = .ok fingerprint) :
    Readable codec [token, algorithm, key] ∧ row_records codec [token, algorithm, key] =
      [{ host_token := token
         algorithm := algorithm
         public_key_base64 := key
         sha256_fingerprint := fingerprint }] := by
  obtain ⟨hcomma, hhash, hat⟩ := denotes_plain hplain
  have hsplit : token.split ',' = [token] := List.splitOn_eq_singleton hcomma
  constructor
  · refine .record hhash hat hfields hfingerprint ?_
    rw [hsplit]
    exact List.forall_mem_singleton.mpr htoken
  · rw [row_records_record hhash, hsplit, List.map_singleton, record_of_fingerprint hfingerprint]

/-- Rows that report nothing can be dropped. -/
theorem flatMap_filter_silent {α β : Type} {f : α → List β} {keep : α → Bool} {xs : List α}
    (h : ∀ x ∈ xs, keep x = false → f x = []) : (xs.filter keep).flatMap f = xs.flatMap f := by
  induction xs with
  | nil => rfl
  | cons x xs ih =>
    have hrest := ih fun y hy => h y (List.mem_cons_of_mem _ hy)
    by_cases hx : keep x = true
    · rw [List.filter_cons_of_pos hx, List.flatMap_cons, List.flatMap_cons, hrest]
    · rw [List.filter_cons_of_neg hx, List.flatMap_cons, h x List.mem_cons_self (by simpa using hx),
        hrest, List.nil_append]

/-- The file with a first key of a plain token reports it, after all it
    reported before. -/
theorem parse_with_candidate (hparse : parse_trusted_keys codec content = .ok trusted)
    (hcheck : check_candidate codec host.profile candidate = .ok host.token)
    (hfirst : trust_decision trusted host.token candidate = .FirstUse)
    (hplain : denotes host.token host.profile.hostname host.profile.port = true)
    (hroom : trusted.length < MAX_KNOWN_HOST_RECORDS) :
    parse_trusted_keys codec (with_candidate content host.token candidate) =
      .ok (trusted ++ [host.record candidate]) := by
  obtain ⟨_, hfields, hfingerprint⟩ := check_candidate_ok hcheck
  obtain ⟨halgorithm, hkey⟩ := validate_host_key_fields_words hfields
  have htoken := validate_host_token_word host.token_valid
  obtain ⟨hrow, hrecord⟩ := plain_row hplain host.token_valid hfields hfingerprint
  obtain ⟨hreadable, htrusted, hlen⟩ := parse_trusted_keys_ok.mp hparse
  -- a row of the token and the algorithm would be a pinned key
  have hsilent : ∀ row ∈ rows content,
      (!row_matches host.token candidate.algorithm row) = false → row_records codec row = [] := by
    intro row hmem hmatch
    refine List.eq_nil_iff_forall_not_mem.mpr fun record hrecord => ?_
    obtain ⟨hosts, rest, rfl, hhash, _, _⟩ := mem_row_records hrecord
    simp only [row_matches, Bool.not_eq_false', Bool.and_eq_true, decide_eq_true_eq,
      List.any_eq_true] at hmatch
    obtain ⟨halg, name, hname, rfl⟩ := hmatch
    have hpinned : record_of codec record.algorithm record.public_key_base64 host.token ∈ trusted := by
      rw [htrusted]
      refine List.mem_flatMap.mpr ⟨_, hmem, ?_⟩
      rw [row_records_record hhash]
      exact List.mem_map_of_mem hname
    exact trust_decision_first_use.mp hfirst _ hpinned rfl halg
  rw [parse_trusted_keys_ok, rows_with_candidate htoken halgorithm hkey, List.flatMap_append,
    flatMap_filter_silent hsilent, List.flatMap_singleton, hrecord, ← htrusted]
  refine ⟨fun row hmem => ?_, rfl, ?_⟩
  · rcases List.mem_append.mp hmem with hmem | hmem
    · exact hreadable row (List.mem_filter.mp hmem).1
    · exact List.mem_singleton.mp hmem ▸ hrow
  · rw [List.length_append, List.length_singleton]
    omega

theorem accept_commit_kept {current : AppResult (List HostKeyCandidate)} {replacement : Replacement}
    (hparse : parse_trusted_keys codec content = .ok trusted)
    (hord : Ordinary codec (some content) (.accept_commit host candidate current replacement)) :
    Kept codec content trusted (.accept_commit host candidate current replacement) := by
  have hord := hord content trusted rfl hparse
  unfold Kept accept_host_key_commit
  dsimp only
  split
  case h_1 => exact .inl ⟨rfl, by simp⟩
  case h_2 token hprepared =>
    simp only [Outcome.bind_eq_ok, Outcome.ite_error_eq_ok, Except.ok.injEq, Prod.mk.injEq]
      at hprepared
    obtain ⟨_, hcheck, _, _, _, _, hlook, rfl, rfl⟩ := hprepared
    obtain ⟨rfl, _, _⟩ := check_candidate_ok hcheck
    rcases ((look_up_candidate_ok hparse).mp hlook).2 with ⟨hdecision, _⟩ | ⟨_, hsome⟩
    · exact .inl ⟨rfl, fun _ => trust_decision_already hdecision⟩
    · simp at hsome
  case h_3 existing token hprepared =>
    simp only [Outcome.bind_eq_ok, Outcome.ite_error_eq_ok, Except.ok.injEq, Prod.mk.injEq]
      at hprepared
    obtain ⟨_, hcheck, _, _, _, _, hlook, rfl, rfl⟩ := hprepared
    obtain ⟨rfl, _, _⟩ := check_candidate_ok hcheck
    rcases ((look_up_candidate_ok hparse).mp hlook).2 with ⟨_, hnone⟩ | ⟨hfirst, hsome⟩
    · simp at hnone
    obtain rfl := Option.some.inj hsome
    obtain ⟨hplain, hroom, hspelling⟩ := hord hfirst
    have hfresh : ∀ old ∈ trusted, host.owns old → old.algorithm ≠ candidate.algorithm := by
      intro old hold howns halgorithm
      exact trust_decision_first_use.mp hfirst old hold (hspelling old hold howns halgorithm) halgorithm
    have hwritten := parse_with_candidate hparse hcheck hfirst hplain hroom
    rcases atomic_write_text_cases replacement (some existing)
      (with_candidate existing host.token candidate) with hfile | ⟨hfile, error, herror⟩ | hlost
    · refine .inr (.inl ⟨⟨⟨_, hfile, reports_of_parsed hwritten⟩, ?_, ?_⟩, hfresh⟩)
      · exact List.forall_mem_singleton.mpr hplain
      · intro record hrecord old hold howns halgorithm
        rw [List.mem_singleton.mp hrecord] at halgorithm
        exact absurd halgorithm (hfresh old hold howns)
    · exact .inl ⟨hfile, fun hok => absurd (hok.symm.trans herror) (by simp)⟩
    · exact .inr (.inr hlost)

end Accepting

/-! ### Seeding -/

section Seeding

variable {content token : Text} {trusted records : List TrustedHostKey} {host : AcceptedHost}

/-- A record that the local lookup made for a token. -/
structure LookedUp (codec : KeyCodec) (token : Text) (record : TrustedHostKey) : Prop where
  token_eq : record.host_token = token
  fields : validate_host_key_fields record.algorithm record.public_key_base64 = .ok ()
  fingerprint : fingerprint_public_key codec record.public_key_base64 = .ok record.sha256_fingerprint

theorem marked_lookup_records {marker : Text} {records : List TrustedHostKey} {warnings : List Text} :
    marked_lookup marker token ≠ .Records records warnings := by
  unfold marked_lookup
  split
  · simp
  · split <;> simp

theorem lookup_line_records {records' : List TrustedHostKey} {warnings warnings' : List Text}
    {line : Text} (hrecords : ∀ record ∈ records, LookedUp codec token record)
    (h : lookup_line codec token records warnings line = .ok (.Records records' warnings')) :
    ∀ record ∈ records', LookedUp codec token record := by
  unfold lookup_line at h
  dsimp only at h
  split at h
  case isTrue =>
    simp only [Except.ok.injEq, LocalKnownHostsLookup.Records.injEq] at h
    exact h.1 ▸ hrecords
  case isFalse =>
    split at h
    case h_1 => simp at h
    case h_2 first fields =>
      split at h
      case isTrue =>
        simp only [Outcome.ite_error_eq_ok, Except.ok.injEq] at h
        exact absurd h.2 marked_lookup_records
      case isFalse =>
        split at h
        case h_2 => simp at h
        case h_1 algorithm key rest =>
          split at h
          case isTrue =>
            simp only [Except.ok.injEq, LocalKnownHostsLookup.Records.injEq] at h
            exact h.1 ▸ hrecords
          case isFalse =>
            simp only [Outcome.bind_eq_ok, Except.ok.injEq, LocalKnownHostsLookup.Records.injEq] at h
            obtain ⟨_, hfields, _, hfingerprint, rfl, _⟩ := h
            intro record hrecord
            rcases List.mem_append.mp hrecord with hrecord | hrecord
            · exact hrecords record hrecord
            · rw [List.mem_singleton.mp hrecord]
              exact ⟨rfl, hfields, hfingerprint⟩

theorem lookup_lines_records {lines : List Text} {records' : List TrustedHostKey}
    {warnings warnings' : List Text} (hrecords : ∀ record ∈ records, LookedUp codec token record)
    (h : lookup_lines codec token records warnings lines = .ok (.Records records' warnings')) :
    ∀ record ∈ records', LookedUp codec token record := by
  induction lines generalizing records warnings with
  | nil =>
    simp only [lookup_lines, Except.ok.injEq, LocalKnownHostsLookup.Records.injEq] at h
    exact h.1 ▸ hrecords
  | cons line lines ih =>
    simp only [lookup_lines, Outcome.bind_eq_ok] at h
    obtain ⟨found, hline, hrest⟩ := h
    cases found with
    | Records next warnings => exact ih (lookup_line_records hrecords hline) hrest
    | Revoked warning => simp at hrest
    | Unsupported warning => simp at hrest
    | Unavailable warning => simp at hrest

theorem lookup_source_records {report : SourceReport} {warnings : List Text}
    (h : lookup_local_known_hosts_source codec token report = .ok (.Records records warnings)) :
    ∀ record ∈ records, LookedUp codec token record := by
  cases report with
  | marked marker =>
    simp only [lookup_local_known_hosts_source, Except.ok.injEq] at h
    exact absurd h marked_lookup_records
  | no_match =>
    simp only [lookup_local_known_hosts_source, Except.ok.injEq,
      LocalKnownHostsLookup.Records.injEq] at h
    obtain ⟨rfl, _⟩ := h
    simp
  | printed output => exact lookup_lines_records (by simp) h

theorem merge_records_mem {found merged : List TrustedHostKey}
    (h : merge_records records found = some merged) :
    ∀ record ∈ merged, record ∈ records ∨ record ∈ found := by
  induction found generalizing records with
  | nil =>
    obtain rfl := Option.some.inj h
    exact fun record hrecord => .inl hrecord
  | cons first found ih =>
    intro record hrecord
    unfold merge_records at h
    split at h
    case isTrue =>
      rcases ih h record hrecord with hrecord | hrecord
      · exact .inl hrecord
      · exact .inr (List.mem_cons_of_mem _ hrecord)
    case isFalse =>
      split at h
      case isTrue => simp at h
      case isFalse =>
        rcases ih h record hrecord with hrecord | hrecord
        · rcases List.mem_append.mp hrecord with hrecord | hrecord
          · exact .inl hrecord
          · exact .inr (List.mem_singleton.mp hrecord ▸ List.mem_cons_self)
        · exact .inr (List.mem_cons_of_mem _ hrecord)

/-- The records of a lookup are records of its token. -/
theorem lookup_records {sources : List (Text × AppResult SourceReport)}
    {records' : List TrustedHostKey} {warnings warnings' : List Text}
    (hrecords : ∀ record ∈ records, LookedUp codec token record)
    (h : lookup_local_known_hosts_records codec token records warnings sources =
      .Records records' warnings') : ∀ record ∈ records', LookedUp codec token record := by
  induction sources generalizing records warnings with
  | nil =>
    simp only [lookup_local_known_hosts_records, LocalKnownHostsLookup.Records.injEq] at h
    exact h.1 ▸ hrecords
  | cons source sources ih =>
    obtain ⟨path, report⟩ := source
    unfold lookup_local_known_hosts_records at h
    split at h
    case h_1 found source_warnings hsource =>
      obtain ⟨report, _, hsource⟩ := Outcome.bind_eq_ok.mp hsource
      split at h
      case h_1 =>
        simp only [LocalKnownHostsLookup.Records.injEq] at h
        rw [← h.1]
        simp
      case h_2 merged hmerge =>
        refine ih (fun record hrecord => ?_) h
        rcases merge_records_mem hmerge record hrecord with hrecord | hrecord
        · exact hrecords record hrecord
        · exact lookup_source_records hsource record hrecord
    case h_2 marked hmarked hsource =>
      exact absurd h (hmarked _ _)
    case h_3 => simp at h

/-- The file with the records of a plain token reports them, after all it
    reported before. -/
theorem parse_with_records (hparse : parse_trusted_keys codec content = .ok trusted)
    (hrecords : ∀ record ∈ records, LookedUp codec host.token record)
    (hplain : denotes host.token host.profile.hostname host.profile.port = true)
    (hroom : trusted.length + records.length ≤ MAX_KNOWN_HOST_RECORDS) :
    parse_trusted_keys codec (with_records content host.token records) =
      .ok (trusted ++ records) := by
  have htoken := validate_host_token_word host.token_valid
  obtain ⟨hreadable, htrusted, _⟩ := parse_trusted_keys_ok.mp hparse
  have hrow : ∀ record ∈ records,
      Readable codec [host.token, record.algorithm, record.public_key_base64] ∧
        row_records codec [host.token, record.algorithm, record.public_key_base64] = [record] := by
    intro record hrecord
    obtain ⟨heq, hfields, hfingerprint⟩ := hrecords record hrecord
    have hplain_row := plain_row hplain host.token_valid hfields hfingerprint
    rwa [← heq] at hplain_row ⊢
  have hadded : (records.map fun record =>
      [host.token, record.algorithm, record.public_key_base64]).flatMap (row_records codec) =
        records := by
    rw [List.flatMap_map]
    have hsingle := List.flatMap_congr fun record hrecord => (hrow record hrecord).2
    rw [hsingle, List.flatMap_singleton']
  have hwords : ∀ record ∈ records, IsWord record.algorithm ∧ IsWord record.public_key_base64 :=
    fun record hrecord => validate_host_key_fields_words (hrecords record hrecord).fields
  rw [parse_trusted_keys_ok, rows_with_records htoken hwords, List.flatMap_append, hadded, ← htrusted]
  refine ⟨fun row hmem => ?_, rfl, ?_⟩
  · rcases List.mem_append.mp hmem with hmem | hmem
    · exact hreadable row hmem
    · obtain ⟨record, hrecord, rfl⟩ := List.mem_map.mp hmem
      exact (hrow record hrecord).1
  · rw [List.length_append]
    exact hroom

/-- Committing the records of a lookup. -/
theorem commit_records_kept (warnings : List Text) (replacement : Replacement)
    (hparse : parse_trusted_keys codec content = .ok trusted)
    (hrecords : ∀ record ∈ records, LookedUp codec host.token record)
    (hord : (∀ old ∈ trusted, old.host_token ≠ host.token) →
      denotes host.token host.profile.hostname host.profile.port = true ∧
        ∀ record ∈ records, ∀ old ∈ trusted, host.owns old →
          old.algorithm = record.algorithm → old.public_key_base64 = record.public_key_base64) :
    let (file, result) := commit_local_known_hosts_records codec (some content) host.token records
      warnings replacement
    (file = some content ∧ ∀ outcome, result = .ok outcome → outcome.imported_records = 0) ∨
      (Adds codec trusted host records file ∧
        ∀ outcome, result = .ok outcome → outcome.imported_records = records.length) ∨
      (file = none ∧ ∃ error, result = .error error) := by
  unfold commit_local_known_hosts_records
  dsimp only
  split
  case h_1 => exact .inl ⟨rfl, by simp⟩
  case h_2 =>
    refine .inl ⟨rfl, fun outcome houtcome => ?_⟩
    rw [← Except.ok.inj houtcome]
    rfl
  case h_3 updated hprepared =>
    simp only [Outcome.bind_eq_ok, Except.ok.injEq, read_known_hosts, too_many_records,
      Outcome.ite_error_eq_ok] at hprepared
    obtain ⟨existing, ⟨_, rfl⟩, trusted', hsame, hprepared⟩ := hprepared
    obtain rfl := Except.ok.inj (hparse.symm.trans hsame)
    split at hprepared
    case isTrue => simp at hprepared
    case isFalse hnew =>
      simp only [Outcome.bind_eq_ok, Except.ok.injEq, Option.some.injEq, Outcome.ite_error_eq_ok]
        at hprepared
      obtain ⟨hroom, _, _, rfl⟩ := hprepared
      obtain ⟨hplain, hunpinned⟩ := hord (by simpa using hnew)
      have hwritten := parse_with_records hparse hrecords hplain (by omega)
      have hadds : ∀ file, file = some (with_records content host.token records) →
          Adds codec trusted host records file := by
        rintro file rfl
        refine ⟨⟨_, rfl, reports_of_parsed hwritten⟩, fun record hrecord => ?_, hunpinned⟩
        show denotes record.host_token _ _ = true
        rw [(hrecords record hrecord).token_eq]
        exact hplain
      have hcases := atomic_write_text_cases replacement (some content)
        (with_records content host.token records)
      revert hcases
      cases atomic_write_text replacement (some content) (with_records content host.token records) with
      | mk file result =>
        cases result with
        | error error =>
          rintro (hfile | ⟨hfile, _⟩ | ⟨hfile, _⟩)
          · exact .inr (.inl ⟨hadds file hfile, by simp⟩)
          · exact .inl ⟨hfile, by simp⟩
          · exact .inr (.inr ⟨hfile, error, rfl⟩)
        | ok _ =>
          rintro (hfile | ⟨_, _, herror⟩ | ⟨_, _, herror⟩)
          · refine .inr (.inl ⟨hadds file hfile, fun outcome houtcome => ?_⟩)
            rw [← Except.ok.inj houtcome]
          · simp at herror
          · simp at herror

theorem seed_kept {sources : List (Text × AppResult SourceReport)} {replacement : Replacement}
    (hparse : parse_trusted_keys codec content = .ok trusted)
    (hord : Ordinary codec (some content) (.seed host sources replacement)) :
    Kept codec content trusted (.seed host sources replacement) := by
  have hord := hord content trusted rfl hparse
  have htoken : validate_host_token
      (known_hosts_host_token host.profile.hostname host.profile.port) = .ok () := host.token_valid
  have hskipped : ∀ reason warnings outcome,
      (.ok (.skipped reason warnings) : AppResult EndpointSeedOutcome) = .ok outcome →
      outcome.imported_records = 0 := by
    intro reason warnings outcome houtcome
    rw [← Except.ok.inj houtcome]
    rfl
  unfold Kept seed_trusted_keys
  dsimp only
  rw [htoken]
  dsimp only
  split
  case h_1 warnings _ => exact .inl ⟨rfl, hskipped _ _⟩
  case h_2 records warnings hne hlookup =>
    have hrecords : ∀ record ∈ records, LookedUp codec host.token record :=
      lookup_records (by simp) hlookup
    have hkept := commit_records_kept warnings replacement hparse hrecords
      (hord records warnings hlookup fun hnil => hne (hnil ▸ rfl))
    rcases hkept with hsame | hadds | hlost
    · exact .inl hsame
    · exact .inr (.inl ⟨records, warnings, hlookup, hadds⟩)
    · exact .inr (.inr hlost)
  case h_3 warning _ => exact .inl ⟨rfl, hskipped _ _⟩
  case h_4 warning _ => exact .inl ⟨rfl, hskipped _ _⟩
  case h_5 warning _ => exact .inl ⟨rfl, hskipped _ _⟩

end Seeding

/-! ### Removing -/

section Removing

variable {content token algorithm key : Text} {trusted : List TrustedHostKey}

/-- A text without its named record reports the others. -/
theorem parse_removed {updated : Text} {removed : Bool}
    (hparse : parse_trusted_keys codec content = .ok trusted)
    (hstays : ∀ row ∈ rows content, RowStays token algorithm key row)
    (hcomment : ∀ row ∈ rows content, row_start row = some '#' → row_names token algorithm key row →
      ∃ record ∈ trusted, record.is_named token algorithm key = true)
    (h : remove_trusted_record codec content token algorithm key = .ok (updated, removed)) :
    parse_trusted_keys codec updated =
        .ok (trusted.filter fun record => !record.is_named token algorithm key) ∧
      (removed = true ↔ ∃ record ∈ trusted, record.is_named token algorithm key = true) := by
  obtain ⟨hreadable, htrusted, hlen⟩ := parse_trusted_keys_ok.mp hparse
  have hkept : ∀ hosts rest, hosts :: algorithm :: key :: rest ∈ rows content →
      token ∈ hosts.split ',' → ((hosts.split ',').filter fun host => host ≠ token) ≠ [] →
      Text.join ',' ((hosts.split ',').filter fun host => host ≠ token) ≠ [] := by
    intro hosts rest hrow htoken hleft
    obtain ⟨first, others, hcons, hfirst⟩ :=
      remaining_hosts_ne_nil (hreadable _ hrow) (hstays _ hrow) htoken hleft
    intro hnil
    have hhead := Text.join_head ',' others hfirst
    rw [← hcons, hnil, eq_comm, List.head?_nil, List.head?_eq_none_iff] at hhead
    exact hfirst hhead
  obtain ⟨hrows, hremoved⟩ := remove_trusted_record_ok hkept h
  have hleft : ∀ row ∈ rows content, (∀ left ∈ remaining_row token algorithm key row,
      Readable codec left) ∧ (remaining_row token algorithm key row).flatMap (row_records codec) =
        (row_records codec row).filter fun record => !record.is_named token algorithm key :=
    fun row hrow => remaining_row_records (hreadable row hrow) (hstays row hrow)
  have hrecords : (rows updated).flatMap (row_records codec) =
      trusted.filter fun record => !record.is_named token algorithm key := by
    rw [hrows, List.flatMap_assoc, htrusted, List.filter_flatMap]
    exact List.flatMap_congr fun row hrow => (hleft row hrow).2
  constructor
  · rw [parse_trusted_keys_ok, hrecords]
    refine ⟨fun left hmem => ?_, rfl, (List.length_filter_le _ _).trans hlen⟩
    rw [hrows] at hmem
    obtain ⟨row, hrow, hmem⟩ := List.mem_flatMap.mp hmem
    exact (hleft row hrow).1 left hmem
  · rw [hremoved]
    constructor
    · rintro ⟨row, hrow, hnames⟩
      by_cases hhash : row_start row = some '#'
      · exact hcomment row hrow hhash hnames
      · -- a row that is no comment reports the record it names
        obtain ⟨hosts, rest, rfl, htoken⟩ := hnames
        refine ⟨record_of codec algorithm key token, ?_, by simp [TrustedHostKey.is_named, record_of]⟩
        rw [htrusted]
        refine List.mem_flatMap.mpr ⟨_, hrow, ?_⟩
        rw [row_records_record hhash]
        exact List.mem_map_of_mem htoken
    · rintro ⟨record, hrecord, hnamed⟩
      rw [htrusted] at hrecord
      obtain ⟨row, hrow, hrecord⟩ := List.mem_flatMap.mp hrecord
      exact ⟨row, hrow, row_names_of_record hrecord hnamed⟩

theorem remove_kept {replacement : Replacement}
    (hparse : parse_trusted_keys codec content = .ok trusted)
    (hord : Ordinary codec (some content) (.remove token algorithm key replacement)) :
    Kept codec content trusted (.remove token algorithm key replacement) := by
  have hord := hord content trusted rfl hparse
  have hremove : ∀ updated removed, (do
      validate_host_token token
      validate_host_key_fields algorithm key
      let existing ← read_known_hosts (some content)
      remove_trusted_record codec existing token algorithm key) = .ok (updated, removed) →
      parse_trusted_keys codec updated =
        .ok (trusted.filter fun record => !record.is_named token algorithm key) ∧
      (removed = true ↔ ∃ record ∈ trusted, record.is_named token algorithm key = true) := by
    intro updated removed h
    simp only [Outcome.bind_eq_ok, read_known_hosts, Outcome.ite_error_eq_ok, Except.ok.injEq] at h
    obtain ⟨_, _, _, _, _, ⟨_, rfl⟩, h⟩ := h
    exact parse_removed hparse (fun row hrow => (hord row hrow).1) (fun row hrow => (hord row hrow).2) h
  unfold Kept remove_trusted_key_record
  dsimp only
  split
  case h_1 => exact .inl ⟨rfl, by simp⟩
  case h_2 updated hprepared =>
    refine .inl ⟨rfl, fun removed hresult => ?_⟩
    obtain rfl := Except.ok.inj hresult
    refine ⟨rfl, fun record hrecord => ?_⟩
    by_contra hnamed
    have hfound := (hremove updated false hprepared).2.mpr ⟨record, hrecord, by simpa using hnamed⟩
    simp at hfound
  case h_3 updated hprepared =>
    obtain ⟨hwritten, hremoved⟩ := hremove updated true hprepared
    have hcases := atomic_write_text_cases replacement (some content) updated
    revert hcases
    cases atomic_write_text replacement (some content) updated with
    | mk file result =>
      cases result with
      | error error =>
        rintro (hfile | ⟨hfile, _⟩ | ⟨hfile, _⟩)
        · exact .inr (.inl ⟨⟨updated, hfile, reports_of_parsed hwritten⟩, by simp⟩)
        · exact .inl ⟨hfile, by simp⟩
        · exact .inr (.inr ⟨hfile, error, rfl⟩)
      | ok _ =>
        rintro (hfile | ⟨_, _, herror⟩ | ⟨_, _, herror⟩)
        · refine .inr (.inl ⟨⟨updated, hfile, reports_of_parsed hwritten⟩, fun removed hresult => ?_⟩)
          exact ⟨(Except.ok.inj hresult).symm, hremoved.mp rfl⟩
        · simp at herror
        · simp at herror

end Removing

/-! ### Runs -/

theorem operation_kept {content : Text} {trusted : List TrustedHostKey} {op : Operation}
    (hparse : parse_trusted_keys codec content = .ok trusted)
    (hord : Ordinary codec (some content) op) : Kept codec content trusted op := by
  cases op with
  | accept_look host candidate => exact accept_look_kept hparse
  | accept_commit host candidate current replacement => exact accept_commit_kept hparse hord
  | seed host sources replacement => exact seed_kept hparse hord
  | remove token algorithm key replacement => exact remove_kept hparse hord

/-- The operation removes the record by name. -/
def Operation.removes (op : Operation) (record : TrustedHostKey) : Prop :=
  match op with
  | .remove host_token algorithm public_key_base64 _ =>
      record.is_named host_token algorithm public_key_base64 = true
  | .accept_look _ _ | .accept_commit _ _ _ _ | .seed _ _ _ => False

/-- The next text is accepted and reports what was not removed. -/
theorem Kept.next {content content' : Text} {trusted : List TrustedHostKey} {op : Operation}
    (h : Kept codec content trusted op) (hparse : parse_trusted_keys codec content = .ok trusted)
    (hrun : op.run codec (some content) = some content') :
    ∃ trusted', parse_trusted_keys codec content' = .ok trusted' ∧
      ∀ record ∈ trusted, ¬ op.removes record → record ∈ trusted' := by
  have hsame : (some content : KnownHostsFile) = some content' →
      ∃ trusted', parse_trusted_keys codec content' = .ok trusted' ∧
        ∀ record ∈ trusted, ¬ op.removes record → record ∈ trusted' := by
    intro heq
    obtain rfl := Option.some.inj heq
    exact ⟨trusted, hparse, fun record hrecord _ => hrecord⟩
  have hadds : ∀ host added, Adds codec trusted host added (some content') →
      ∃ trusted', parse_trusted_keys codec content' = .ok trusted' ∧
        ∀ record ∈ trusted, ¬ op.removes record → record ∈ trusted' := by
    rintro host added ⟨⟨written, heq, hreports⟩, _, _⟩
    obtain rfl := Option.some.inj heq
    exact ⟨_, hreports.parsed, fun record hrecord _ => List.mem_append_left _ hrecord⟩
  cases op with
  | accept_look host candidate => exact hsame hrun
  | accept_commit host candidate current replacement =>
    rcases h with ⟨hfile, _⟩ | ⟨hfile, _⟩ | ⟨hfile, _⟩
    · exact hsame (hfile.symm.trans hrun)
    · have hnext : Adds codec trusted host [host.record candidate]
          (Operation.run codec (some content) (.accept_commit host candidate current replacement)) :=
        hfile
      rw [hrun] at hnext
      exact hadds _ _ hnext
    · exact absurd (hfile.symm.trans hrun) (by simp)
  | seed host sources replacement =>
    rcases h with ⟨hfile, _⟩ | ⟨records, _, _, hfile, _⟩ | ⟨hfile, _⟩
    · exact hsame (hfile.symm.trans hrun)
    · have hnext : Adds codec trusted host records
          (Operation.run codec (some content) (.seed host sources replacement)) := hfile
      rw [hrun] at hnext
      exact hadds _ _ hnext
    · exact absurd (hfile.symm.trans hrun) (by simp)
  | remove token algorithm key replacement =>
    rcases h with ⟨hfile, _⟩ | ⟨⟨written, hfile, hreports⟩, _⟩ | ⟨hfile, _⟩
    · exact hsame (hfile.symm.trans hrun)
    · obtain rfl := Option.some.inj (hfile.symm.trans hrun)
      refine ⟨_, hreports.parsed, fun record hrecord hkept => List.mem_filter.mpr ⟨hrecord, ?_⟩⟩
      show (!record.is_named token algorithm key) = true
      rw [Bool.not_eq_true']
      exact Bool.eq_false_iff.mpr hkept
    · exact absurd (hfile.symm.trans hrun) (by simp)

/-- Nothing can be written while the file is missing. -/
theorem run_missing (op : Operation) : op.run codec none = none := by
  cases op with
  | accept_look host candidate => rfl
  | accept_commit host candidate current replacement =>
    unfold Operation.run accept_host_key_commit
    dsimp only
    split
    case h_1 => rfl
    case h_2 => rfl
    case h_3 existing token hprepared =>
      simp only [Outcome.bind_eq_ok, Outcome.ite_error_eq_ok, Except.ok.injEq, Prod.mk.injEq]
        at hprepared
      obtain ⟨_, _, _, _, _, _, hlook, _⟩ := hprepared
      obtain ⟨_, hread, _⟩ := Outcome.bind_eq_ok.mp hlook
      simp [read_known_hosts] at hread
  | seed host sources replacement =>
    unfold Operation.run seed_trusted_keys
    dsimp only
    split
    case h_1 => rfl
    case h_2 =>
      split
      case h_2 =>
        unfold commit_local_known_hosts_records
        dsimp only
        split
        case h_1 => rfl
        case h_2 => rfl
        case h_3 updated hprepared =>
          obtain ⟨_, hread, _⟩ := Outcome.bind_eq_ok.mp hprepared
          simp [read_known_hosts] at hread
      all_goals rfl
  | remove token algorithm key replacement =>
    unfold Operation.run remove_trusted_key_record
    dsimp only
    split
    case h_1 => rfl
    case h_2 => rfl
    case h_3 updated hprepared =>
      simp only [Outcome.bind_eq_ok] at hprepared
      obtain ⟨_, _, _, _, _, hread, _⟩ := hprepared
      simp [read_known_hosts] at hread

/-- The text of the file, if it is there, is accepted. -/
def Accepted (codec : KeyCodec) (file : KnownHostsFile) : Prop :=
  ∀ content, file = some content → ∃ trusted, parse_trusted_keys codec content = .ok trusted

theorem reachable_accepted {file : KnownHostsFile}
    (h : (known_hosts codec).ReachableWhen (Ordinary codec) file) : Accepted codec file := by
  refine h.invariant ?_ ?_
  · rintro _ ⟨content, trusted, rfl, hparse⟩ content' heq
    obtain rfl := Option.some.inj heq
    exact ⟨trusted, hparse⟩
  · intro file op next hinv hord hnext content' heq
    have hrun : op.run codec file = some content' := (Option.some.inj hnext).trans heq
    cases file with
    | none => simp [run_missing] at hrun
    | some content =>
      obtain ⟨trusted, hparse⟩ := hinv content rfl
      obtain ⟨trusted', hparse', _⟩ := (operation_kept hparse hord).next hparse hrun
      exact ⟨trusted', hparse'⟩

/-- **Pin integrity**: in every run whose steps meet ordinary endpoints the
    file stays accepted, every operation adds and removes just the records
    it names, and a pinned key stays until its record is removed. -/
theorem known_hosts_pins_kept {content : Text}
    (h : (known_hosts codec).ReachableWhen (Ordinary codec) (some content)) :
    ∃ trusted, Reports codec content trusted ∧
      (∀ op, Ordinary codec (some content) op → Kept codec content trusted op) ∧
      ∀ record ∈ trusted, ∀ content',
        (known_hosts codec).StepsWhen
          (fun file op => Ordinary codec file op ∧ ¬ op.removes record) (some content) (some content') →
        ∃ trusted', Reports codec content' trusted' ∧ record ∈ trusted' := by
  obtain ⟨trusted, hparse⟩ := reachable_accepted h content rfl
  refine ⟨trusted, reports_of_parsed hparse, fun op hord => operation_kept hparse hord,
    fun record hrecord content' hsteps => ?_⟩
  have hend := hsteps.preserves (P := fun file => ∀ content, file = some content →
    ∃ trusted, parse_trusted_keys codec content = .ok trusted ∧ record ∈ trusted) ?_ ?_
  · obtain ⟨trusted', hparse', hmem⟩ := hend content' rfl
    exact ⟨trusted', reports_of_parsed hparse', hmem⟩
  · rintro file op next hpinned ⟨hord, hkept⟩ hnext content'' heq
    have hrun : op.run codec file = some content'' := (Option.some.inj hnext).trans heq
    cases file with
    | none => simp [run_missing] at hrun
    | some content =>
      obtain ⟨trusted, hparse, hmem⟩ := hpinned content rfl
      obtain ⟨trusted', hparse', hothers⟩ := (operation_kept hparse hord).next hparse hrun
      exact ⟨trusted', hparse', hothers record hmem hkept⟩
  · intro content'' heq
    obtain rfl := Option.some.inj heq
    exact ⟨trusted, hparse, hrecord⟩

/-! ### Two hosts -/

def first_key : Text := "AAAAAAAAAAAAAAAA".toList

def second_key : Text := "AAAAAAAAAAAAAAAB".toList

def first_digest : List UInt8 :=
  [21, 236, 123, 240, 181, 7, 50, 180, 159, 130, 40, 224, 125, 36, 54, 83,
   56, 249, 227, 171, 153, 75, 0, 175, 8, 229, 163, 191, 254, 85, 253, 139]

def second_digest : List UInt8 :=
  [52, 35, 207, 226, 237, 120, 15, 93, 9, 221, 175, 120, 168, 74, 202, 166,
   217, 89, 127, 89, 62, 16, 46, 193, 86, 110, 125, 114, 60, 177, 239, 155]

def first_fingerprint : Text := "Fex78LUHMrSfgijgfSQ2Uzj546uZSwCvCOWjv/5V/Ys".toList

def second_fingerprint : Text := "NCPP4u14D10J3a94qErKptlZf1k+EC7BVm59cjyx75s".toList

/-- The libraries on two keys. -/
def two_keys : KeyCodec where
  decode := fun key =>
    if key = first_key then .ok (List.replicate 12 0)
    else if key = second_key then .ok (List.replicate 11 0 ++ [1])
    else .error "Invalid padding".toList
  digest := fun decoded => if decoded = List.replicate 12 0 then first_digest else second_digest
  encode_no_pad := fun digest => if digest = first_digest then first_fingerprint else second_fingerprint

/-- The profile of a new host. -/
def AcceptedHost.of_draft (draft : HostDraft) (accepted : validate_host_draft draft = .ok ()) :
    AcceptedHost where
  profile := Store.profile_of_draft 0 0 draft none
  draft := draft
  accepted := accepted
  hostname_eq := rfl
  port_eq := rfl

def lab : AcceptedHost :=
  .of_draft { Store.HostDraft.plain none "lab".toList none with hostname := "lab".toList } (by decide +kernel)

/-- A host whose name is a list of two. -/
def gate_and_lab : AcceptedHost :=
  .of_draft { Store.HostDraft.plain none "gate".toList none with hostname := "gate,lab".toList }
    (by decide +kernel)

def lab_candidate : HostKeyCandidate where
  host_token := "lab".toList
  algorithm := "ssh-ed25519".toList
  public_key_base64 := first_key
  sha256_fingerprint := "SHA256:".toList ++ first_fingerprint

def gate_and_lab_candidate : HostKeyCandidate where
  host_token := "gate,lab".toList
  algorithm := "ssh-ed25519".toList
  public_key_base64 := second_key
  sha256_fingerprint := "SHA256:".toList ++ second_fingerprint

def accept_lab : Operation := .accept_commit lab lab_candidate (.ok [lab_candidate]) .replaced

def accept_gate_and_lab : Operation :=
  .accept_commit gate_and_lab gate_and_lab_candidate (.ok [gate_and_lab_candidate]) .replaced

def lab_pinned : Text := "lab ssh-ed25519 AAAAAAAAAAAAAAAA\n".toList

def gate_and_lab_pinned : Text :=
  "lab ssh-ed25519 AAAAAAAAAAAAAAAA\ngate,lab ssh-ed25519 AAAAAAAAAAAAAAAB\n".toList

theorem accept_lab_run : accept_lab.run two_keys (some []) = some lab_pinned := by
  decide +kernel

theorem accept_gate_and_lab_run :
    accept_gate_and_lab.run two_keys (some lab_pinned) = some gate_and_lab_pinned := by
  decide +kernel

theorem lab_pinned_parsed :
    parse_trusted_keys two_keys lab_pinned = .ok [lab.record lab_candidate] := by
  decide +kernel

theorem accept_lab_ordinary : Ordinary two_keys (some []) accept_lab := by
  intro content trusted hcontent hparse
  obtain rfl := Option.some.inj hcontent
  obtain rfl : [] = trusted := Except.ok.inj hparse
  exact fun _ => ⟨by decide +kernel, by decide, by simp⟩

/-- A first key of an empty file. -/
theorem lab_pin_kept :
    ∃ trusted, Reports two_keys lab_pinned trusted ∧
      (∀ op, Ordinary two_keys (some lab_pinned) op → Kept two_keys lab_pinned trusted op) ∧
      ∀ record ∈ trusted, ∀ content',
        (known_hosts two_keys).StepsWhen
          (fun file op => Ordinary two_keys file op ∧ ¬ op.removes record) (some lab_pinned)
          (some content') →
        ∃ trusted', Reports two_keys content' trusted' ∧ record ∈ trusted' := by
  have hempty : (known_hosts two_keys).ReachableWhen (Ordinary two_keys) (some []) :=
    .init ⟨[], [], rfl, rfl⟩
  have hpinned : (known_hosts two_keys).ReachableWhen (Ordinary two_keys) (some lab_pinned) :=
    .step hempty accept_lab_ordinary (congrArg some accept_lab_run)
  exact known_hosts_pins_kept hpinned

/-- A host name with a comma is a list of hosts: accepting its key adds two
    records, one of them a second key for a pinned endpoint. -/
theorem list_host_replaces_pin :
    ∃ content trusted op, (known_hosts two_keys).Reachable (some content) ∧
      parse_trusted_keys two_keys content = .ok trusted ∧ ¬ Kept two_keys content trusted op := by
  have hempty : (known_hosts two_keys).Reachable (some []) := .init ⟨[], [], rfl, rfl⟩
  have hpinned : (known_hosts two_keys).Reachable (some lab_pinned) :=
    .step hempty trivial (congrArg some accept_lab_run)
  refine ⟨lab_pinned, _, accept_gate_and_lab, hpinned, lab_pinned_parsed, ?_⟩
  have hrun := accept_gate_and_lab_run
  rintro (⟨hsame, _⟩ | ⟨⟨⟨text, htext, hreports⟩, _, _⟩, _⟩ | ⟨hlost, _⟩)
  · exact absurd (hrun.symm.trans hsame) (by decide)
  · obtain rfl := Option.some.inj (hrun.symm.trans htext)
    exact absurd hreports.parsed (by decide +kernel)
  · exact absurd (hrun.symm.trans hlost) (by simp)

end Ssh
