import RemoteDeck.Ssh.KnownHosts

/-! # Records and rows

    The records that `parse_trusted_keys` reports depend on the rows of the
    file alone (`parse_trusted_keys_ok`), so each writer is described by
    what it does to the rows: accepting replaces those of one token and
    algorithm, seeding appends, and removing edits the rows that name a
    record (`rows_with_candidate`, `rows_with_records`,
    `remove_trusted_record_ok`).
-/

namespace Ssh

open Text (rows rows_of IsWord)

variable {codec : KeyCodec}

/-! ### What a row reports -/

/-- The record of a host token. -/
def record_of (codec : KeyCodec) (algorithm public_key_base64 host_token : Text) : TrustedHostKey where
  host_token := host_token
  algorithm := algorithm
  public_key_base64 := public_key_base64
  sha256_fingerprint := ((fingerprint_public_key codec public_key_base64).toOption).getD []

theorem record_of_fingerprint {algorithm key token fingerprint : Text}
    (h : fingerprint_public_key codec key = .ok fingerprint) :
    record_of codec algorithm key token =
      { host_token := token
        algorithm := algorithm
        public_key_base64 := key
        sha256_fingerprint := fingerprint } := by
  simp [record_of, h, Except.toOption]

/-- The first character of the first field. -/
def row_start (row : List Text) : Option Char := row.head?.bind List.head?

/-- The records of a row. -/
def row_records (codec : KeyCodec) (row : List Text) : List TrustedHostKey :=
  match row with
  | hosts :: algorithm :: key :: _ =>
      if row_start row = some '#' then []
      else (hosts.split ',').map (record_of codec algorithm key)
  | _ => []

/-- A comment, or a row with records. -/
inductive Readable (codec : KeyCodec) : List Text → Prop where
  | comment {row : List Text} : row_start row = some '#' → Readable codec row
  | record {hosts algorithm key fingerprint : Text} {rest : List Text} :
      hosts.head? ≠ some '#' → hosts.head? ≠ some '@' →
      validate_host_key_fields algorithm key = .ok () →
      fingerprint_public_key codec key = .ok fingerprint →
      (∀ token ∈ hosts.split ',', validate_host_token token = .ok ()) →
      Readable codec (hosts :: algorithm :: key :: rest)

/-! ### Parsing by rows -/

/-- A bounded accumulation succeeds when each of its steps does. -/
theorem accumulate_ok {α β ε : Type} {push : List β → α → Except ε (List β)}
    {good : α → Prop} {added : α → List β} {bound : Nat}
    (hpush : ∀ acc a acc', acc.length ≤ bound →
      (push acc a = .ok acc' ↔ good a ∧ acc' = acc ++ added a ∧ acc'.length ≤ bound))
    {acc acc' : List β} {xs : List α} (hacc : acc.length ≤ bound) :
    xs.foldlM push acc = .ok acc' ↔
      (∀ a ∈ xs, good a) ∧ acc' = acc ++ xs.flatMap added ∧ acc'.length ≤ bound := by
  induction xs generalizing acc with
  | nil =>
    simp only [List.foldlM_nil, pure, Except.pure, Except.ok.injEq, List.not_mem_nil,
      List.flatMap_nil, List.append_nil]
    constructor
    · rintro rfl
      exact ⟨by simp, rfl, hacc⟩
    · rintro ⟨_, rfl, _⟩
      rfl
  | cons a xs ih =>
    rw [List.foldlM_cons, Outcome.bind_eq_ok, List.forall_mem_cons, List.flatMap_cons]
    constructor
    · rintro ⟨next, hnext, hrest⟩
      obtain ⟨hgood, rfl, hnext⟩ := (hpush acc a next hacc).mp hnext
      obtain ⟨hall, rfl, hlen⟩ := (ih hnext).mp hrest
      exact ⟨⟨hgood, hall⟩, List.append_assoc _ _ _, hlen⟩
    · rintro ⟨⟨hgood, hall⟩, rfl, hlen⟩
      have hnext : (acc ++ added a).length ≤ bound := by
        simp only [List.length_append] at hlen ⊢
        omega
      refine ⟨acc ++ added a, (hpush acc a _ hacc).mpr ⟨hgood, rfl, hnext⟩, (ih hnext).mpr ?_⟩
      exact ⟨hall, (List.append_assoc _ _ _).symm, hlen⟩

theorem push_record_ok {algorithm key fingerprint token : Text} {trusted trusted' : List TrustedHostKey} :
    push_record algorithm key fingerprint trusted token = .ok trusted' ↔
      validate_host_token token = .ok () ∧
        trusted' = trusted ++
          [{ host_token := token
             algorithm := algorithm
             public_key_base64 := key
             sha256_fingerprint := fingerprint }] ∧
          trusted'.length ≤ MAX_KNOWN_HOST_RECORDS := by
  simp only [push_record, too_many_records, Outcome.ite_error_eq_ok, Outcome.bind_eq_ok,
    Except.ok.injEq]
  constructor
  · rintro ⟨hroom, _, hvalid, rfl⟩
    refine ⟨hvalid, rfl, ?_⟩
    rw [List.length_append, List.length_singleton]
    omega
  · rintro ⟨hvalid, rfl, hlen⟩
    rw [List.length_append, List.length_singleton] at hlen
    exact ⟨by omega, (), hvalid, rfl⟩

theorem row_records_comment {row : List Text} (h : row_start row = some '#') :
    row_records codec row = [] := by
  unfold row_records
  split
  · rw [if_pos h]
  · rfl

theorem row_records_record {hosts algorithm key : Text} {rest : List Text}
    (h : hosts.head? ≠ some '#') :
    row_records codec (hosts :: algorithm :: key :: rest) =
      (hosts.split ',').map (record_of codec algorithm key) := by
  unfold row_records
  exact if_neg h

/-- `push_line` on the fields of a line. -/
def push_row (codec : KeyCodec) (trusted : List TrustedHostKey) (row : List Text) :
    AppResult (List TrustedHostKey) :=
  if row = [] ∨ row_start row = some '#' then .ok trusted
  else
    match row with
    | hosts :: algorithm :: public_key_base64 :: _ =>
        if hosts.head? = some '@' then unsupported_record
        else do
          validate_host_key_fields algorithm public_key_base64
          let fingerprint ← fingerprint_public_key codec public_key_base64
          (hosts.split ',').foldlM (push_record algorithm public_key_base64 fingerprint) trusted
    | _ => unsupported_record

theorem push_line_eq (trusted : List TrustedHostKey) (line : Text) :
    push_line codec trusted line = push_row codec trusted line.split_whitespace := by
  have hskip : (line.trim.isEmpty || decide (line.trim.head? = some '#')) = true ↔
      line.split_whitespace = [] ∨ row_start line.split_whitespace = some '#' := by
    unfold row_start
    simp only [Text.trim_head, Bool.or_eq_true, List.isEmpty_iff, Text.trim_eq_nil, decide_eq_true_eq]
  unfold push_line push_row
  dsimp only
  rw [Text.split_whitespace_trim]
  exact if_congr hskip rfl rfl

/-- The hosts of a row of records. -/
theorem push_hosts_ok {hosts algorithm key fingerprint : Text}
    {trusted trusted' : List TrustedHostKey} (hlen : trusted.length ≤ MAX_KNOWN_HOST_RECORDS)
    (hfingerprint : fingerprint_public_key codec key = .ok fingerprint) :
    (hosts.split ',').foldlM (push_record algorithm key fingerprint) trusted = .ok trusted' ↔
      (∀ token ∈ hosts.split ',', validate_host_token token = .ok ()) ∧
        trusted' = trusted ++ (hosts.split ',').map (record_of codec algorithm key) ∧
          trusted'.length ≤ MAX_KNOWN_HOST_RECORDS := by
  have hpush : ∀ (acc : List TrustedHostKey) (token : Text) (acc' : List TrustedHostKey),
      acc.length ≤ MAX_KNOWN_HOST_RECORDS →
      (push_record algorithm key fingerprint acc token = .ok acc' ↔
        validate_host_token token = .ok () ∧ acc' = acc ++ [record_of codec algorithm key token] ∧
          acc'.length ≤ MAX_KNOWN_HOST_RECORDS) := by
    intro acc token acc' _
    rw [push_record_ok, record_of_fingerprint hfingerprint]
  rw [accumulate_ok hpush hlen, ← List.map_eq_flatMap]

/-- A row adds its records. -/
theorem push_row_ok {trusted trusted' : List TrustedHostKey} {row : List Text}
    (hlen : trusted.length ≤ MAX_KNOWN_HOST_RECORDS) (hne : row ≠ []) :
    push_row codec trusted row = .ok trusted' ↔
      Readable codec row ∧ trusted' = trusted ++ row_records codec row ∧
        trusted'.length ≤ MAX_KNOWN_HOST_RECORDS := by
  unfold push_row
  by_cases hcomment : row_start row = some '#'
  · rw [if_pos (.inr hcomment), row_records_comment hcomment, List.append_nil, Except.ok.injEq]
    constructor
    · rintro rfl
      exact ⟨.comment hcomment, rfl, hlen⟩
    · rintro ⟨_, rfl, _⟩
      rfl
  rw [if_neg (not_or.mpr ⟨hne, hcomment⟩)]
  have hshort : unsupported_record ≠ .ok trusted' := by simp [unsupported_record]
  rcases row with _ | ⟨hosts, _ | ⟨algorithm, _ | ⟨key, rest⟩⟩⟩
  case nil => exact absurd rfl hne
  case cons.nil =>
    refine ⟨fun h => absurd h hshort, fun ⟨hreadable, _⟩ => ?_⟩
    cases hreadable with
    | comment h => exact absurd h hcomment
  case cons.cons.nil =>
    refine ⟨fun h => absurd h hshort, fun ⟨hreadable, _⟩ => ?_⟩
    cases hreadable with
    | comment h => exact absurd h hcomment
  case cons.cons.cons =>
    have hhash : hosts.head? ≠ some '#' := hcomment
    simp only [unsupported_record, Outcome.ite_error_eq_ok, Outcome.bind_eq_ok]
    rw [row_records_record hhash]
    constructor
    · rintro ⟨hat, _, hfields, fingerprint, hfingerprint, hhosts⟩
      obtain ⟨htokens, hadded, hbound⟩ := (push_hosts_ok hlen hfingerprint).mp hhosts
      exact ⟨.record hhash hat hfields hfingerprint htokens, hadded, hbound⟩
    · rintro ⟨hreadable, hadded, hbound⟩
      cases hreadable with
      | comment h => exact absurd h hcomment
      | record _ hat hfields hfingerprint htokens =>
        refine ⟨hat, (), hfields, _, hfingerprint, ?_⟩
        exact (push_hosts_ok hlen hfingerprint).mpr ⟨htokens, hadded, hbound⟩

/-- A line adds the records of its row, if it has one. -/
theorem push_line_ok (trusted : List TrustedHostKey) (line : Text) (trusted' : List TrustedHostKey)
    (hlen : trusted.length ≤ MAX_KNOWN_HOST_RECORDS) :
    push_line codec trusted line = .ok trusted' ↔
      (∀ row ∈ rows_of [line], Readable codec row) ∧
        trusted' = trusted ++ (rows_of [line]).flatMap (row_records codec) ∧
          trusted'.length ≤ MAX_KNOWN_HOST_RECORDS := by
  rw [push_line_eq]
  by_cases hblank : line.split_whitespace = []
  · rw [Text.rows_of_blank hblank, hblank, List.flatMap_nil, List.append_nil]
    have hpush : push_row codec trusted [] = .ok trusted := if_pos (.inl rfl)
    rw [hpush, Except.ok.injEq]
    constructor
    · rintro rfl
      exact ⟨by simp, rfl, hlen⟩
    · rintro ⟨_, rfl, _⟩
      rfl
  · rw [Text.rows_of_singleton hblank, List.forall_mem_singleton, List.flatMap_singleton]
    exact push_row_ok hlen hblank

/-- A text is accepted when its rows are readable and report no more records
    than allowed. -/
theorem parse_trusted_keys_ok {content : Text} {trusted : List TrustedHostKey} :
    parse_trusted_keys codec content = .ok trusted ↔
      (∀ row ∈ rows content, Readable codec row) ∧
        trusted = (rows content).flatMap (row_records codec) ∧
          trusted.length ≤ MAX_KNOWN_HOST_RECORDS := by
  unfold parse_trusted_keys
  rw [accumulate_ok push_line_ok (Nat.zero_le _), ← Text.rows_of_lines, Text.rows_of_eq_flatMap,
    List.nil_append, List.flatMap_assoc]
  have hrows : (∀ line ∈ content.lines, ∀ row ∈ rows_of [line], Readable codec row) ↔
      ∀ row ∈ content.lines.flatMap fun line => rows_of [line], Readable codec row := by
    simp only [List.mem_flatMap]
    constructor
    · rintro h row ⟨line, hline, hrow⟩
      exact h line hline row hrow
    · intro h line hline row hrow
      exact h row ⟨line, hline, hrow⟩
  rw [hrows]

/-! ### Words -/

theorem isWord_of_printable {t : Text} (hne : t ≠ []) (h : unprintable t = false) : IsWord t := by
  refine ⟨hne, fun c hc => ?_⟩
  have hprintable := List.any_eq_false.mp h c hc
  simp only [Bool.or_eq_true, not_or, Bool.not_eq_true] at hprintable
  exact hprintable.1

theorem validate_host_token_word {token : Text} (h : validate_host_token token = .ok ()) :
    IsWord token := by
  simp only [validate_host_token, Outcome.ite_error_eq_ok, Bool.or_eq_true, not_or,
    List.isEmpty_iff, Bool.not_eq_true] at h
  exact isWord_of_printable h.1.1.1 h.1.2

theorem validate_host_key_fields_words {algorithm key : Text}
    (h : validate_host_key_fields algorithm key = .ok ()) : IsWord algorithm ∧ IsWord key := by
  simp only [validate_host_key_fields, Outcome.ite_error_eq_ok, Bool.or_eq_true, not_or,
    List.isEmpty_iff, Bool.not_eq_true, decide_eq_true_eq] at h
  obtain ⟨⟨⟨⟨⟨⟨halgorithm, _⟩, hprintable⟩, hlen⟩, _⟩, hkey⟩, _⟩ := h
  refine ⟨isWord_of_printable halgorithm hprintable, isWord_of_printable ?_ hkey⟩
  rintro rfl
  simp at hlen

/-- The line of a record. -/
theorem record_line_fields {token algorithm key : Text} (htoken : IsWord token)
    (halgorithm : IsWord algorithm) (hkey : IsWord key) :
    Text.split_whitespace (token ++ ' ' :: algorithm ++ ' ' :: key) = [token, algorithm, key] := by
  have hspace : Text.is_whitespace ' ' = true := by decide
  rw [Text.split_whitespace_append_cons _ _ hspace, Text.split_whitespace_append_cons _ _ hspace,
    htoken.fields, halgorithm.fields, hkey.fields]
  rfl

theorem record_line_newline {token algorithm key : Text} (htoken : IsWord token)
    (halgorithm : IsWord algorithm) (hkey : IsWord key) :
    '\n' ∉ token ++ ' ' :: algorithm ++ ' ' :: key := by
  simp [htoken.no_newline, halgorithm.no_newline, hkey.no_newline]

theorem record_line_rows {token algorithm key : Text} (htoken : IsWord token)
    (halgorithm : IsWord algorithm) (hkey : IsWord key) :
    rows_of [token ++ ' ' :: algorithm ++ ' ' :: key] = [[token, algorithm, key]] := by
  have hfields := record_line_fields htoken halgorithm hkey
  rw [Text.rows_of_singleton (by rw [hfields]; exact List.cons_ne_nil _ _), hfields]

/-! ### Writers by rows -/

/-- `line_matches_host_algorithm` on the fields of a line. -/
def row_matches (token algorithm : Text) (row : List Text) : Bool :=
  match row with
  | hosts :: record_algorithm :: _ =>
      record_algorithm = algorithm && (hosts.split ',').any fun host => host = token
  | _ => false

/-- Accepting drops the rows of the token and algorithm and adds one. -/
theorem rows_with_candidate {existing token : Text} {candidate : HostKeyCandidate}
    (htoken : IsWord token) (halgorithm : IsWord candidate.algorithm)
    (hkey : IsWord candidate.public_key_base64) :
    rows (with_candidate existing token candidate) =
      ((rows existing).filter fun row => !row_matches token candidate.algorithm row) ++
        [[token, candidate.algorithm, candidate.public_key_base64]] := by
  unfold with_candidate
  have hkept : rows_of (existing.lines.filter fun line =>
      !line_matches_host_algorithm line token candidate.algorithm) =
      (rows existing).filter fun row => !row_matches token candidate.algorithm row := by
    rw [← Text.rows_of_lines]
    exact Text.rows_of_filter (fun row => !row_matches token candidate.algorithm row) existing.lines
  rw [Text.rows_append_newline, Text.rows_join, Text.rows_of_append, hkept,
    record_line_rows htoken halgorithm hkey]
  intro part hpart
  rcases List.mem_append.mp hpart with hpart | hpart
  · exact Text.mem_lines_newline (List.mem_filter.mp hpart).1
  · rw [List.mem_singleton.mp hpart]
    exact record_line_newline htoken halgorithm hkey

/-- Seeding adds a row for each record. -/
theorem rows_with_records {existing token : Text} {records : List TrustedHostKey}
    (htoken : IsWord token) (hrecords : ∀ record ∈ records,
      IsWord record.algorithm ∧ IsWord record.public_key_base64) :
    rows (with_records existing token records) =
      rows existing ++
        records.map fun record => [token, record.algorithm, record.public_key_base64] := by
  -- each line is appended to a text that ends with a line feed
  have hlines : ∀ updated : Text, Text.Complete updated →
      rows (records.foldl
        (fun updated record => updated ++ seed_line token record ++ ['\n']) updated) =
      rows updated ++
        records.map fun record => [token, record.algorithm, record.public_key_base64] := by
    induction records with
    | nil => simp
    | cons record records ih =>
      intro updated hupdated
      obtain ⟨halgorithm, hkey⟩ := hrecords record List.mem_cons_self
      have hline : '\n' ∉ seed_line token record := record_line_newline htoken halgorithm hkey
      have hrows : rows_of [seed_line token record] =
          [[token, record.algorithm, record.public_key_base64]] :=
        record_line_rows htoken halgorithm hkey
      rw [List.foldl_cons, ih (fun other hother => hrecords other (List.mem_cons_of_mem _ hother)) _
        (Text.complete_append_newline _), Text.rows_append_line hupdated hline, hrows,
        List.append_assoc, List.map_cons, List.singleton_append]
  unfold with_records
  by_cases hopen : existing ≠ [] ∧ existing.getLast? ≠ some '\n'
  · rw [if_pos (by simpa using hopen), hlines _ (Text.complete_append_newline _),
      Text.rows_append_newline]
  · rw [if_neg (by simpa using hopen), hlines]
    by_cases hempty : existing = []
    · exact .inl hempty
    · exact Text.complete_of_getLast? (by_contra fun hlast => hopen ⟨hempty, hlast⟩)

/-- What removing a record leaves of a row. -/
def remaining_row (token algorithm key : Text) (row : List Text) : List (List Text) :=
  match row with
  | hosts :: line_algorithm :: line_key :: rest =>
      if line_algorithm = algorithm ∧ line_key = key ∧ token ∈ hosts.split ',' then
        let remaining_hosts := (hosts.split ',').filter fun host => host ≠ token
        if remaining_hosts = [] then []
        else [Text.join ',' remaining_hosts :: line_algorithm :: line_key :: rest]
      else [row]
  | _ => [row]

theorem remaining_row_matched {token algorithm key hosts : Text} {rest : List Text}
    (h : token ∈ hosts.split ',') :
    remaining_row token algorithm key (hosts :: algorithm :: key :: rest) =
      if ((hosts.split ',').filter fun host => host ≠ token) = [] then []
      else [Text.join ',' ((hosts.split ',').filter fun host => host ≠ token) ::
        algorithm :: key :: rest] := by
  unfold remaining_row
  exact if_pos ⟨rfl, rfl, h⟩

/-- A row of a record of the token, the algorithm and the key. -/
def row_names (token algorithm key : Text) (row : List Text) : Prop :=
  ∃ hosts rest, row = hosts :: algorithm :: key :: rest ∧ token ∈ hosts.split ','

theorem remaining_row_other {token algorithm key : Text} {row : List Text}
    (h : ¬ row_names token algorithm key row) : remaining_row token algorithm key row = [row] := by
  unfold remaining_row
  split
  case h_1 hosts line_algorithm line_key rest =>
    refine if_neg ?_
    rintro ⟨rfl, rfl, htoken⟩
    exact h ⟨hosts, rest, rfl, htoken⟩
  case h_2 => rfl

theorem remove_from_line_matched {token algorithm key hosts line : Text} {rest : List Text}
    (hline : line.split_whitespace = hosts :: algorithm :: key :: rest)
    (h : token ∈ hosts.split ',') :
    remove_from_line token algorithm key line =
      (if ((hosts.split ',').filter fun host => host ≠ token) = [] then []
       else [Text.join ',' ((hosts.split ',').filter fun host => host ≠ token) ++ ' ' ::
          Text.join ' ' (algorithm :: key :: rest)], true) := by
  have hany : ((hosts.split ',').any fun host => decide (host = token)) = true :=
    List.any_eq_true.mpr ⟨token, h, decide_eq_true rfl⟩
  unfold remove_from_line
  rw [hline]
  simp only [hany, ne_eq, not_true_eq_false, decide_false, Bool.not_true, Bool.or_self,
    Bool.false_eq_true, if_false, List.isEmpty_iff]
  split <;> rfl

theorem remove_from_line_other {token algorithm key line : Text}
    (h : ¬ row_names token algorithm key line.split_whitespace) :
    remove_from_line token algorithm key line = ([line], false) := by
  unfold remove_from_line
  split
  case h_1 hosts line_algorithm line_key rest hline =>
    refine if_pos ?_
    by_contra hkept
    simp only [Bool.or_eq_true, not_or, decide_eq_true_eq, not_not, Bool.not_eq_true',
      Bool.not_eq_false] at hkept
    obtain ⟨⟨rfl, rfl⟩, htoken⟩ := hkept
    obtain ⟨host, hhost, heq⟩ := List.any_eq_true.mp htoken
    obtain rfl : host = token := of_decide_eq_true heq
    exact h ⟨hosts, rest, hline, hhost⟩
  case h_2 => rfl

/-- The hosts that stay on a line make a field. -/
theorem remaining_hosts_word {hosts token : Text} (hhosts : IsWord hosts)
    (hne : Text.join ',' ((hosts.split ',').filter fun host => host ≠ token) ≠ []) :
    IsWord (Text.join ',' ((hosts.split ',').filter fun host => host ≠ token)) := by
  refine ⟨hne, fun c hc => ?_⟩
  rcases Text.mem_join hc with rfl | ⟨part, hpart, hc⟩
  · decide
  · have hsplit : part ∈ hosts.split ',' := (List.mem_filter.mp hpart).1
    have hjoin : [','].intercalate (hosts.split ',') = hosts := List.intercalate_splitOn ','
    refine hhosts.2 c ?_
    rw [← hjoin]
    exact Text.mem_join_of_mem hsplit hc

/-- What a removal leaves of a line are the rows that it leaves of its
    fields. -/
theorem rows_remove_from_line {token algorithm key line : Text} (hline : '\n' ∉ line)
    (hkept : ∀ hosts rest, line.split_whitespace = hosts :: algorithm :: key :: rest →
      token ∈ hosts.split ',' → ((hosts.split ',').filter fun host => host ≠ token) ≠ [] →
      Text.join ',' ((hosts.split ',').filter fun host => host ≠ token) ≠ []) :
    (∀ part ∈ (remove_from_line token algorithm key line).1, '\n' ∉ part) ∧
      rows_of (remove_from_line token algorithm key line).1 =
        (rows_of [line]).flatMap (remaining_row token algorithm key) := by
  by_cases hnames : row_names token algorithm key line.split_whitespace
  · obtain ⟨hosts, rest, hfields, htoken⟩ := hnames
    have hne : line.split_whitespace ≠ [] := by simp [hfields]
    rw [Text.rows_of_singleton hne, List.flatMap_singleton, hfields,
      remaining_row_matched htoken, remove_from_line_matched hfields htoken]
    by_cases hgone : ((hosts.split ',').filter fun host => host ≠ token) = []
    · rw [if_pos hgone, if_pos hgone]
      exact ⟨by simp, rfl⟩
    · have hwords : ∀ word ∈ line.split_whitespace, IsWord word :=
        fun word hword => Text.mem_split_whitespace hword
      rw [hfields] at hwords
      have hhosts := remaining_hosts_word (hwords hosts List.mem_cons_self)
        (hkept hosts rest hfields htoken hgone)
      have htail : ∀ word ∈ algorithm :: key :: rest, IsWord word :=
        fun word hword => hwords word (List.mem_cons_of_mem _ hword)
      have hspace : Text.is_whitespace ' ' = true := by decide
      rw [if_neg hgone, if_neg hgone]
      constructor
      · intro part hpart hnewline
        rw [List.mem_singleton.mp hpart, List.mem_append, List.mem_cons] at hnewline
        rcases hnewline with hnewline | hnewline | hnewline
        · exact hhosts.no_newline hnewline
        · exact absurd hnewline (by decide)
        · rcases Text.mem_join hnewline with hnewline | ⟨word, hword, hnewline⟩
          · exact absurd hnewline (by decide)
          · exact (htail word hword).no_newline hnewline
      · have hsplit := Text.split_whitespace_append_cons
          (Text.join ',' ((hosts.split ',').filter fun host => host ≠ token))
          (Text.join ' ' (algorithm :: key :: rest)) hspace
        rw [hhosts.fields, Text.split_whitespace_words htail, List.singleton_append] at hsplit
        rw [Text.rows_of_singleton (by rw [hsplit]; exact List.cons_ne_nil _ _), hsplit]
  · rw [remove_from_line_other hnames]
    refine ⟨by simpa using hline, ?_⟩
    by_cases hblank : line.split_whitespace = []
    · rw [Text.rows_of_blank hblank, List.flatMap_nil]
    · rw [Text.rows_of_singleton hblank, List.flatMap_singleton, remaining_row_other hnames]

theorem remove_from_line_removed {token algorithm key line : Text} :
    (remove_from_line token algorithm key line).2 = true ↔
      row_names token algorithm key line.split_whitespace := by
  by_cases hnames : row_names token algorithm key line.split_whitespace
  · obtain ⟨hosts, rest, hfields, htoken⟩ := hnames
    rw [remove_from_line_matched hfields htoken]
    exact iff_of_true rfl ⟨hosts, rest, hfields, htoken⟩
  · rw [remove_from_line_other hnames]
    exact iff_of_false (by simp) hnames

/-- Removing edits the rows, and tells whether there was one to edit. -/
theorem remove_trusted_record_ok {content token algorithm key updated : Text} {removed : Bool}
    (hkept : ∀ hosts rest, hosts :: algorithm :: key :: rest ∈ rows content →
      token ∈ hosts.split ',' → ((hosts.split ',').filter fun host => host ≠ token) ≠ [] →
      Text.join ',' ((hosts.split ',').filter fun host => host ≠ token) ≠ [])
    (h : remove_trusted_record codec content token algorithm key = .ok (updated, removed)) :
    rows updated = (rows content).flatMap (remaining_row token algorithm key) ∧
      (removed = true ↔ ∃ row ∈ rows content, row_names token algorithm key row) := by
  simp only [remove_trusted_record, Outcome.bind_eq_ok, Except.ok.injEq, Prod.mk.injEq] at h
  obtain ⟨_, _, hupdated, hremoved⟩ := h
  have hline : ∀ line ∈ content.lines, (∀ part ∈ (remove_from_line token algorithm key line).1,
      '\n' ∉ part) ∧ rows_of (remove_from_line token algorithm key line).1 =
        (rows_of [line]).flatMap (remaining_row token algorithm key) := by
    intro line hline
    refine rows_remove_from_line (Text.mem_lines_newline hline) fun hosts rest hfields => ?_
    refine hkept hosts rest ?_
    rw [← Text.rows_of_lines, Text.mem_rows_of]
    exact ⟨List.cons_ne_nil _ _, line, hline, hfields⟩
  constructor
  · -- the text is the edited lines, ended if there are any
    have hrows : rows updated = rows (Text.join '\n'
        ((content.lines.map (remove_from_line token algorithm key)).flatMap Prod.fst)) := by
      rw [← hupdated]
      split
      · rfl
      · exact Text.rows_append_newline _
    rw [hrows, List.flatMap_map, Text.rows_join, Text.rows_of_flatMap fun line h => (hline line h).2,
      Text.rows_of_lines]
    intro part hpart
    obtain ⟨line, hmem, hpart⟩ := List.mem_flatMap.mp hpart
    exact (hline line hmem).1 part hpart
  · rw [← hremoved, List.any_map, List.any_eq_true]
    constructor
    · rintro ⟨line, hmem, hnames⟩
      have hrow := remove_from_line_removed.mp hnames
      refine ⟨line.split_whitespace, ?_, hrow⟩
      rw [← Text.rows_of_lines, Text.mem_rows_of]
      obtain ⟨hosts, rest, hfields, _⟩ := hrow
      exact ⟨by simp [hfields], line, hmem, rfl⟩
    · rintro ⟨row, hrow, hnames⟩
      rw [← Text.rows_of_lines, Text.mem_rows_of] at hrow
      obtain ⟨_, line, hmem, rfl⟩ := hrow
      exact ⟨line, hmem, remove_from_line_removed.mpr hnames⟩

/-! ### Records after a removal -/

/-- The record of the token, the algorithm and the key. -/
def TrustedHostKey.is_named (token algorithm key : Text) (record : TrustedHostKey) : Bool :=
  record.host_token = token && record.algorithm = algorithm && record.public_key_base64 = key

/-- What a removal leaves of a row stays a comment, or a row of records: its
    first host does not become the start of something else. -/
def RowStays (token algorithm key : Text) (row : List Text) : Prop :=
  ∀ hosts rest, row = hosts :: algorithm :: key :: rest → token ∈ hosts.split ',' →
    let remaining_hosts := (hosts.split ',').filter fun host => host ≠ token
    if hosts.head? = some '#' then remaining_hosts = [] ∨ row_start remaining_hosts = some '#'
    else row_start remaining_hosts ≠ some '#' ∧ row_start remaining_hosts ≠ some '@'

theorem mem_row_records {row : List Text} {record : TrustedHostKey}
    (h : record ∈ row_records codec row) :
    ∃ hosts rest, row = hosts :: record.algorithm :: record.public_key_base64 :: rest ∧
      hosts.head? ≠ some '#' ∧ record.host_token ∈ hosts.split ',' ∧
      record = record_of codec record.algorithm record.public_key_base64 record.host_token := by
  unfold row_records at h
  split at h
  case h_2 => simp at h
  case h_1 hosts algorithm key rest =>
    split at h
    case isTrue => simp at h
    case isFalse hhash =>
      obtain ⟨token, htoken, rfl⟩ := List.mem_map.mp h
      exact ⟨hosts, rest, rfl, hhash, htoken, rfl⟩

theorem row_names_of_record {row : List Text} {record : TrustedHostKey}
    {token algorithm key : Text} (h : record ∈ row_records codec row)
    (hnamed : record.is_named token algorithm key = true) : row_names token algorithm key row := by
  obtain ⟨hosts, rest, hrow, _, htoken, _⟩ := mem_row_records h
  simp only [TrustedHostKey.is_named, Bool.and_eq_true, decide_eq_true_eq] at hnamed
  obtain ⟨⟨rfl, rfl⟩, rfl⟩ := hnamed
  exact ⟨hosts, rest, hrow, htoken⟩

theorem filter_named_records {tokens : List Text} {token algorithm key : Text} :
    (tokens.map (record_of codec algorithm key)).filter
        (fun record => !record.is_named token algorithm key) =
      (tokens.filter fun host => host ≠ token).map (record_of codec algorithm key) := by
  rw [List.filter_map]
  congr 1
  refine List.filter_congr fun host _ => ?_
  by_cases hhost : host = token
  · simp [TrustedHostKey.is_named, record_of, hhost]
  · simp [TrustedHostKey.is_named, record_of, hhost]

/-- The tokens of a row of records are words. -/
theorem Readable.tokens {hosts algorithm key : Text} {rest : List Text}
    (h : Readable codec (hosts :: algorithm :: key :: rest)) (hhash : hosts.head? ≠ some '#') :
    ∀ token ∈ hosts.split ',', IsWord token := by
  cases h with
  | comment hcomment => exact absurd hcomment hhash
  | record _ _ _ _ htokens => exact fun token htoken => validate_host_token_word (htokens token htoken)

/-- The hosts that stay on a line do not vanish. -/
theorem remaining_hosts_ne_nil {hosts token algorithm key : Text} {rest : List Text}
    (hreadable : Readable codec (hosts :: algorithm :: key :: rest))
    (hstays : RowStays token algorithm key (hosts :: algorithm :: key :: rest))
    (htoken : token ∈ hosts.split ',')
    (hleft : ((hosts.split ',').filter fun host => host ≠ token) ≠ []) :
    ∃ first others, (hosts.split ',').filter (fun host => host ≠ token) = first :: others ∧
      first ≠ [] := by
  obtain ⟨first, others, hcons⟩ := List.exists_cons_of_ne_nil hleft
  refine ⟨first, others, hcons, ?_⟩
  have hstart := hstays hosts rest rfl htoken
  by_cases hhash : hosts.head? = some '#'
  · simp only [if_pos hhash, hcons, List.cons_ne_nil, false_or] at hstart
    rintro rfl
    simp [row_start] at hstart
  · have hmem : first ∈ (hosts.split ',').filter fun host => host ≠ token := by
      rw [hcons]
      exact List.mem_cons_self
    exact (hreadable.tokens hhash first (List.mem_filter.mp hmem).1).1

/-- A row keeps its other records. -/
theorem remaining_row_records {row : List Text} {token algorithm key : Text}
    (hreadable : Readable codec row) (hstays : RowStays token algorithm key row) :
    (∀ left ∈ remaining_row token algorithm key row, Readable codec left) ∧
      (remaining_row token algorithm key row).flatMap (row_records codec) =
        (row_records codec row).filter fun record => !record.is_named token algorithm key := by
  by_cases hnames : row_names token algorithm key row
  · obtain ⟨hosts, rest, rfl, htoken⟩ := hnames
    have hstart := hstays hosts rest rfl htoken
    rw [remaining_row_matched htoken]
    by_cases hgone : ((hosts.split ',').filter fun host => host ≠ token) = []
    · rw [if_pos hgone, List.flatMap_nil]
      refine ⟨by simp, ?_⟩
      by_cases hhash : hosts.head? = some '#'
      · have hcomment : row_start (hosts :: algorithm :: key :: rest) = some '#' := hhash
        rw [row_records_comment hcomment, List.filter_nil]
      · rw [row_records_record hhash, filter_named_records, hgone, List.map_nil]
    rw [if_neg hgone, List.forall_mem_singleton, List.flatMap_singleton]
    obtain ⟨first, others, hcons, hfirst⟩ := remaining_hosts_ne_nil hreadable hstays htoken hgone
    have hhead := Text.join_head ',' others hfirst
    by_cases hhash : hosts.head? = some '#'
    · -- a comment stays one
      simp only [if_pos hhash, hcons, List.cons_ne_nil, false_or] at hstart
      have hcomment : first.head? = some '#' := hstart
      have hrow : row_start (hosts :: algorithm :: key :: rest) = some '#' := hhash
      rw [hcons, row_records_comment hrow, List.filter_nil]
      have hstill : row_start (Text.join ',' (first :: others) :: algorithm :: key :: rest) =
          some '#' := hhead.trans hcomment
      exact ⟨.comment hstill, row_records_comment hstill⟩
    · -- a row of records keeps those of its other hosts
      simp only [if_neg hhash, hcons] at hstart
      have hplain : first.head? ≠ some '#' ∧ first.head? ≠ some '@' := hstart
      have hsplit : (Text.join ',' (first :: others)).split ',' = first :: others := by
        refine List.splitOn_intercalate ',' (fun part hpart => ?_) (List.cons_ne_nil _ _)
        rw [← hcons] at hpart
        have hmem := (List.mem_filter.mp hpart).1
        rw [Text.split, List.splitOn_eq_splitOnP] at hmem
        exact fun hcomma => by simpa using Text.splitOnP_no_separator hmem _ hcomma
      have hstill : (Text.join ',' (first :: others)).head? ≠ some '#' := hhead ▸ hplain.1
      rw [hcons, row_records_record hhash, row_records_record hstill, filter_named_records, hsplit,
        hcons]
      refine ⟨?_, rfl⟩
      cases hreadable with
      | comment h => exact absurd h hhash
      | record _ _ hfields hfingerprint htokens =>
        refine .record hstill (hhead ▸ hplain.2) hfields hfingerprint fun other hother => ?_
        rw [hsplit, ← hcons] at hother
        exact htokens other (List.mem_filter.mp hother).1
  · rw [remaining_row_other hnames, List.flatMap_singleton]
    refine ⟨by simpa using hreadable, ?_⟩
    refine (List.filter_eq_self.mpr fun record hrecord => ?_).symm
    rw [Bool.not_eq_true']
    by_contra hnamed
    exact hnames (row_names_of_record hrecord (by simpa using hnamed))

end Ssh
