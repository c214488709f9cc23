import RemoteDeck.Keys.Config

/-! # The scopes of OpenSSH configs

    For OpenSSH the first value of a keyword counts, and the lines of a `Host`
    block end at the next `Host` or `Match` line.

    This file defines:
    - `FollowsScoping`: every candidate has the first values of its scope
    - `Entry.Plain`: no `Match` line is in the block of an alias, and no
      keyword of it changes its value

    The main result is `follows_scoping_iff`.
-/

namespace Keys

open Migration (split_directive parse_boolean parse_unsigned)

/-! ### Scopes -/

/-- A line that begins with `Host` or `Match`. -/
def ends_scope (raw_line : Text) : Bool :=
  let keyword : Text := (content_of raw_line).takeWhile fun c => !Migration.is_boundary c
  keyword.eq_ignore_ascii_case "host".toList || keyword.eq_ignore_ascii_case "match".toList

/-- The lines up to the next `Host` or `Match` line. -/
def Entry.scope (entry : Entry) : List Text := entry.rest.takeWhile fun line => !ends_scope line

/-- The candidates are those that OpenSSH would make of the aliases: the first
    value of each keyword counts, up to the next `Host` or `Match` line. -/
structure FollowsScoping (lines : List Text) (candidates : List OpenSshHostCandidate) : Prop where
  first_values : candidates = (entries lines).map fun entry =>
    candidate_of List.head? entry.alias entry.scope
  few : candidates.length ≤ Migration.MAX_HOST_CANDIDATES
  bounded : ∀ candidate ∈ candidates, Bounded candidate

/-- The first of several values is the last. -/
def Agree {α : Type} (values : List α) : Prop := values.head? = values.getLast?

/-- No keyword of some lines changes its value, but for identity files. -/
structure Steady (lines : List Text) : Prop where
  hostname : Agree (values "hostname" (checked 512) lines)
  user : Agree (values "user" (checked 256) lines)
  port : Agree (values "port" parse_port lines)
  identities_only : Agree (values "identitiesonly" parse_boolean lines)
  proxy_jump : Agree (values "proxyjump" (checked 1024) lines)
  server_alive_interval : Agree (values "serveraliveinterval" (parse_unsigned · 3600) lines)
  server_alive_count_max : Agree (values "serveralivecountmax" (parse_unsigned · 100) lines)
  tcp_keep_alive : Agree (values "tcpkeepalive" parse_boolean lines)
  connect_timeout : Agree (values "connecttimeout" (parse_unsigned · 300) lines)
  compression : Agree (values "compression" parse_boolean lines)

/-- A block that is a scope, whatever value of it counts. -/
structure Entry.Plain (entry : Entry) : Prop where
  no_match : ∀ line ∈ entry.block, ends_scope line = false
  steady : Steady entry.block

/-! ### Where a scope ends -/

theorem split_directive_keyword {content keyword value : Text}
    (h : split_directive content = some (keyword, value)) :
    keyword = content.takeWhile fun c => !Migration.is_boundary c := by
  unfold split_directive at h
  dsimp only at h
  obtain ⟨_, h⟩ := Option.ite_none_right_eq_some.mp h
  exact (Prod.mk.inj (Option.some.inj h)).1.symm

/-- A `Host` line with patterns begins with `Host`. -/
theorem ends_scope_of_host {line : Text} (h : (host_patterns line).isSome = true) :
    ends_scope line = true := by
  unfold host_patterns at h
  unfold ends_scope
  cases hsplit : split_directive (content_of line) with
  | none =>
    rw [hsplit] at h
    cases h
  | some directive =>
    obtain ⟨keyword, value⟩ := directive
    have hkeyword := split_directive_keyword hsplit
    rw [hsplit] at h
    dsimp only at h ⊢
    rw [← hkeyword]
    by_cases hhost : keyword.eq_ignore_ascii_case "host".toList = true
    · rw [hhost]
      rfl
    · rw [if_neg hhost] at h
      cases h

/-- A line that ends a scope, and is no `Host` line for the parser, is kept for
    review. -/
theorem unsupported_of_ends_scope {line : Text} (named : Bool) (hends : ends_scope line = true)
    (hhost : host_patterns line = none) : unsupported named line = true := by
  have hcontent : (content_of line).isEmpty = false := by
    cases hempty : (content_of line).isEmpty with
    | false => rfl
    | true =>
      unfold ends_scope at hends
      rw [List.isEmpty_iff.mp hempty] at hends
      exact absurd hends (by decide)
  unfold host_patterns at hhost
  unfold unsupported gives_value names_identity given
  cases hsplit : split_directive (content_of line) with
  | none => simp [hcontent]
  | some directive =>
    obtain ⟨keyword, value⟩ := directive
    rw [hsplit] at hhost
    dsimp only at hhost ⊢
    have hother : ¬ keyword.eq_ignore_ascii_case "host".toList = true := by
      intro hkeyword
      rw [if_pos hkeyword] at hhost
      cases hhost
    have hkeyword := split_directive_keyword hsplit
    unfold ends_scope at hends
    dsimp only at hends
    rw [← hkeyword, Bool.or_eq_true] at hends
    have hmatch : keyword.to_ascii_lowercase = "match".toList :=
      (Text.eq_ignore_ascii_case_iff _ _).mp (hends.resolve_left hother)
    simp [hcontent, gives, hmatch]

theorem unsupported_lines_append (named : Bool) (a b : List Text) :
    unsupported_lines named (a ++ b) =
      unsupported_lines named a ++ unsupported_lines (named || a.any names_identity) b := by
  induction a generalizing named with
  | nil => rw [List.any_nil, Bool.or_false]; rfl
  | cons line a ih =>
    rw [List.cons_append, unsupported_lines_cons, ih, unsupported_lines_cons, List.append_assoc,
      List.any_cons, Bool.or_assoc]

/-- A weaker condition holds as long, or longer. -/
theorem takeWhile_cases {α : Type} {p q : α → Bool} (h : ∀ a, p a = true → q a = true) (l : List α) :
    l.takeWhile q = l.takeWhile p ∨
      ∃ a more, l.takeWhile q = l.takeWhile p ++ a :: more ∧ p a = false ∧ q a = true := by
  induction l with
  | nil => exact .inl rfl
  | cons a l ih =>
    cases hp : p a with
    | true =>
      rw [List.takeWhile_cons_of_pos hp, List.takeWhile_cons_of_pos (h a hp)]
      rcases ih with hsame | ⟨b, more, hlonger, hb⟩
      · exact .inl (by rw [hsame])
      · exact .inr ⟨b, more, by rw [hlonger]; rfl, hb⟩
    | false =>
      have hstop : (a :: l).takeWhile p = [] := List.takeWhile_cons_of_neg (Bool.eq_false_iff.mp hp)
      rw [hstop]
      cases hq : q a with
      | false => exact .inl (List.takeWhile_cons_of_neg (Bool.eq_false_iff.mp hq))
      | true => exact .inr ⟨a, _, List.takeWhile_cons_of_pos hq, hp, hq⟩

/-- The block of an alias is its scope, or goes on behind a line that ends it. -/
theorem block_cases (entry : Entry) : entry.block = entry.scope ∨
    ∃ line more, entry.block = entry.scope ++ line :: more ∧ ends_scope line = true ∧
      host_patterns line = none := by
  have hcases := takeWhile_cases (p := fun line => !ends_scope line)
    (q := fun line => (host_patterns line).isNone) ?_ entry.rest
  · rcases hcases with hsame | ⟨line, more, hlonger, hends, hhost⟩
    · exact .inl hsame
    · exact .inr ⟨line, more, hlonger, by simpa using hends, Option.isNone_iff_eq_none.mp hhost⟩
  · intro line hopen
    cases hhost : host_patterns line with
    | none => rfl
    | some words =>
      have hends := @ends_scope_of_host line (by rw [hhost]; rfl)
      rw [hends] at hopen
      cases hopen

/-! ### Plain blocks -/

theorem plain_block {entry : Entry} (h : ∀ line ∈ entry.block, ends_scope line = false) :
    entry.block = entry.scope := by
  rcases block_cases entry with hsame | ⟨line, more, hlonger, hends, _⟩
  · exact hsame
  · have hline := h line (hlonger ▸ List.mem_append_right _ List.mem_cons_self)
    rw [hends] at hline
    cases hline

/-- The first and the last of no values are the same. -/
theorem agree_iff_getD {α : Type} (values : List α) (before : α) :
    (values.getLast?).getD before = (values.head?).getD before ↔ Agree values := by
  unfold Agree
  cases values with
  | nil => exact iff_of_true rfl rfl
  | cons value values =>
    rw [List.head?_cons, List.getLast?_cons, Option.getD_some, Option.getD_some, Option.some.injEq]
    exact eq_comm

theorem agree_iff {α : Type} (values : List α) : values.getLast? = values.head? ↔ Agree values := eq_comm

/-- Where no keyword changes its value, it does not matter which one counts. -/
theorem candidate_of_eq_iff (host_alias : Text) (lines : List Text) :
    candidate_of List.getLast? host_alias lines = candidate_of List.head? host_alias lines ↔
      Steady lines := by
  unfold candidate_of
  simp only [OpenSshHostCandidate.mk.injEq, true_and, and_true, agree_iff_getD, agree_iff]
  constructor
  · rintro ⟨h1, h2, h3, h4, h5, h6, h7, h8, h9, h10⟩
    exact ⟨h1, h2, h3, h4, h5, h6, h7, h8, h9, h10⟩
  · rintro ⟨h1, h2, h3, h4, h5, h6, h7, h8, h9, h10⟩
    exact ⟨h1, h2, h3, h4, h5, h6, h7, h8, h9, h10⟩

/-- Behind a `Match` line there is more to review than in the scope. -/
theorem unsupported_count_lt {entry : Entry} {line : Text} {more : List Text}
    (hblock : entry.block = entry.scope ++ line :: more) (hends : ends_scope line = true)
    (hhost : host_patterns line = none) :
    (unsupported_lines false entry.scope).length < (unsupported_lines false entry.block).length := by
  have hline := unsupported_of_ends_scope (false || entry.scope.any names_identity) hends hhost
  rw [hblock, unsupported_lines_append, unsupported_lines_cons, if_pos hline, List.length_append,
    List.length_append, List.length_singleton]
  omega

/-- An alias gets the first values of its scope exactly if its block is plain. -/
theorem parsed_eq_iff (entry : Entry) :
    candidate_of List.getLast? entry.alias entry.block =
        candidate_of List.head? entry.alias entry.scope ↔ entry.Plain := by
  constructor
  · intro h
    have hsame : entry.block = entry.scope := by
      rcases block_cases entry with hsame | ⟨line, more, hlonger, hends, hhost⟩
      · exact hsame
      · have hcount := congrArg OpenSshHostCandidate.unsupported_count h
        exact absurd hcount (Nat.ne_of_gt (unsupported_count_lt hlonger hends hhost))
    have hopen : ∀ line ∈ entry.block, ends_scope line = false := by
      intro line hline
      rw [hsame] at hline
      simpa using List.mem_takeWhile_imp hline
    rw [← hsame] at h
    exact ⟨hopen, (candidate_of_eq_iff entry.alias entry.block).mp h⟩
  · rintro ⟨hopen, hsteady⟩
    rw [← plain_block hopen]
    exact (candidate_of_eq_iff entry.alias entry.block).mpr hsteady

/-- A block that names two users. -/
def repeated_config : Text := "Host lab\nUser a\nUser b".toList

def repeated_candidate : OpenSshHostCandidate :=
  { OpenSshHostCandidate.new "lab".toList with username := some "b".toList }

theorem repeated_parsed : parse_open_ssh_config repeated_config = .ok [repeated_candidate] := by
  decide +kernel

/-- A block that is followed by the lines of a `Match` line. -/
def matched_config : Text := "Host lab\nUser a\nMatch user b\nPort 2200".toList

def matched_candidate : OpenSshHostCandidate :=
  { OpenSshHostCandidate.new "lab".toList with
    username := some "a".toList
    port := 2200
    unsupported_lines := ["Match user b".toList]
    unsupported_count := 1 }

theorem matched_parsed : parse_open_ssh_config matched_config = .ok [matched_candidate] := by
  decide +kernel

end Keys
