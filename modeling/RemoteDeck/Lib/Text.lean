import Mathlib.Data.List.DropRight

/-! # Text

    A text is a list of Unicode scalar values.  This file defines the
    operations of Rust's `str` that programs use on texts: length in UTF-8
    bytes, trimming, splitting at white space, at a separator and at line
    ends, and comparison that ignores ASCII case; together with the lemmas
    that say how they act on texts built by concatenation.
-/

/-- A Rust `String`: its sequence of `char`s. -/
abbrev Text := List Char

/-- The comparison of texts is lawful; named here, so that all modules use one proof of it. -/
instance Text.instLawfulBEq : LawfulBEq Text := inferInstanceAs (LawfulBEq (List Char))

namespace Text

/-! ### Characters -/

/-- `char::is_whitespace`: the Unicode property `White_Space`. -/
def is_whitespace (c : Char) : Bool :=
  let n := c.toNat
  (0x9 ≤ n && n ≤ 0xD) || n = 0x20 || n = 0x85 || n = 0xA0 || n = 0x1680 ||
    (0x2000 ≤ n && n ≤ 0x200A) || n = 0x2028 || n = 0x2029 || n = 0x202F || n = 0x205F ||
    n = 0x3000

/-- `char::is_control`: the Unicode category `Cc`. -/
def is_control (c : Char) : Bool :=
  let n := c.toNat
  n ≤ 0x1F || (0x7F ≤ n && n ≤ 0x9F)

/-- `char::is_ascii_hexdigit`. -/
def is_ascii_hexdigit (c : Char) : Bool :=
  c.isDigit || ('a' ≤ c && c ≤ 'f') || ('A' ≤ c && c ≤ 'F')

/-- What a finite list of characters is checked for. -/
theorem forall_mem_of_all {P : Char → Prop} [DecidablePred P] {t : List Char}
    (h : (t.all fun c => P c) = true) : ∀ c ∈ t, P c := by
  intro c hc
  exact of_decide_eq_true (List.all_eq_true.mp h c hc)

/-! ### Length, trimming, case -/

/-- `str::len`: the number of bytes of the UTF-8 encoding. -/
def len (t : Text) : Nat := t.foldr (fun c n => c.utf8Size + n) 0

@[simp] theorem len_nil : len [] = 0 := rfl

@[simp] theorem len_cons (c : Char) (t : Text) : len (c :: t) = c.utf8Size + len t := rfl

@[simp] theorem len_append (a b : Text) : len (a ++ b) = len a + len b := by
  induction a with
  | nil => simp
  | cons c a ih => rw [List.cons_append, len_cons, len_cons, ih, Nat.add_assoc]

theorem len_le (t : Text) : len t ≤ 4 * t.length := by
  induction t with
  | nil => simp
  | cons c t ih =>
    have hc : c.utf8Size ≤ 4 := Char.utf8Size_le_four c
    rw [len_cons, List.length_cons]
    omega

/-- An ASCII character is one byte. -/
theorem len_of_ascii {t : Text} (h : ∀ c ∈ t, c.toNat < 128) : t.len = t.length := by
  induction t with
  | nil => rfl
  | cons c t ih =>
    obtain ⟨hc, ht⟩ := List.forall_mem_cons.mp h
    have hone : c.utf8Size = 1 := by
      unfold Char.utf8Size
      apply if_pos
      rw [UInt32.le_iff_toNat_le]
      show c.toNat ≤ 127
      omega
    rw [len_cons, ih ht, hone, List.length_cons]
    omega

/-- `str::trim`. -/
def trim (t : Text) : Text := (t.dropWhile is_whitespace).rdropWhile is_whitespace

/-- The longest start of a text of at most so many bytes. -/
def truncate_at : Nat → Text → Text
  | _, [] => []
  | limit, c :: rest => if c.utf8Size ≤ limit then c :: truncate_at (limit - c.utf8Size) rest else []

/-- `Ord` of texts: that of their bytes, which is that of their characters. -/
def le : Text → Text → Bool
  | [], _ => true
  | _ :: _, [] => false
  | a :: as, b :: bs => a < b || (a == b && le as bs)

/-- `str::to_ascii_lowercase`. -/
def to_ascii_lowercase (t : Text) : Text := t.map Char.toLower

/-- `str::eq_ignore_ascii_case`. -/
def eq_ignore_ascii_case (a b : Text) : Bool := a.to_ascii_lowercase = b.to_ascii_lowercase

@[simp] theorem eq_ignore_ascii_case_iff (a b : Text) :
    a.eq_ignore_ascii_case b = true ↔ a.to_ascii_lowercase = b.to_ascii_lowercase := by
  simp [eq_ignore_ascii_case]

@[simp] theorem eq_ignore_ascii_case_eq_false (a b : Text) :
    a.eq_ignore_ascii_case b = false ↔ a.to_ascii_lowercase ≠ b.to_ascii_lowercase := by
  simp [eq_ignore_ascii_case]

/-- A character that is no letter is only its own lower case. -/
theorem toLower_eq {c d : Char} (h : c.toLower = d) (hd : d.isLower = false) : c = d := by
  unfold Char.toLower at h
  split at h
  · rename_i hupper
    have hrange : (65 : UInt32) ≤ c.val ∧ c.val ≤ 90 := hupper
    have hval : d.val = c.val + 32 := by rw [← h]; rfl
    have hlow := UInt32.le_iff_toNat_le.mp hrange.1
    have hhigh := UInt32.le_iff_toNat_le.mp hrange.2
    -- the lower case of an upper case letter is a lower case letter
    have hlower : 97 ≤ d.val ∧ d.val ≤ 122 := by
      rw [hval, UInt32.le_iff_toNat_le, UInt32.le_iff_toNat_le, UInt32.toNat_add]
      simp at hlow hhigh ⊢
      omega
    have hd : (decide (d.val ≥ 97) && decide (d.val ≤ 122)) = false := hd
    simp [hlower] at hd
  · exact h

theorem to_ascii_lowercase_append (a b : Text) :
    to_ascii_lowercase (a ++ b) = a.to_ascii_lowercase ++ b.to_ascii_lowercase :=
  List.map_append

/-- A text without white space is its own trim. -/
theorem trim_eq_self {t : Text} (h : ∀ c ∈ t, is_whitespace c = false) : t.trim = t := by
  have hdrop : t.dropWhile is_whitespace = t := by
    cases t with
    | nil => rfl
    | cons c t => rw [List.dropWhile_cons_of_neg (by simp [h c])]
  rw [trim, hdrop, List.rdropWhile_eq_self_iff]
  exact fun hne => by simp [h _ (List.getLast_mem hne)]

theorem trim_subset {t : Text} {c : Char} (h : c ∈ t.trim) : c ∈ t :=
  (List.dropWhile_suffix _).subset ((List.rdropWhile_prefix _ _).subset h)

/-! ### Order -/

theorem le_cons_cons (c d : Char) (a b : Text) :
    le (c :: a) (d :: b) = true ↔ c.toNat < d.toNat ∨ c = d ∧ le a b = true := by
  simp only [le, Bool.or_eq_true, decide_eq_true_eq, Bool.and_eq_true, beq_iff_eq]
  rfl

theorem le_total (a b : Text) : le a b = true ∨ le b a = true := by
  induction a generalizing b with
  | nil => exact .inl rfl
  | cons c a ih =>
    cases b with
    | nil => exact .inr rfl
    | cons d b =>
      rw [le_cons_cons, le_cons_cons]
      rcases Nat.lt_trichotomy c.toNat d.toNat with hlt | heq | hgt
      · exact .inl (.inl hlt)
      · obtain rfl := Char.toNat_inj.mp heq
        exact (ih b).imp (fun h => .inr ⟨rfl, h⟩) (fun h => .inr ⟨rfl, h⟩)
      · exact .inr (.inl hgt)

theorem le_antisymm {a b : Text} (hab : le a b = true) (hba : le b a = true) : a = b := by
  induction a generalizing b with
  | nil =>
    cases b with
    | nil => rfl
    | cons d b => exact absurd hba Bool.false_ne_true
  | cons c a ih =>
    cases b with
    | nil => exact absurd hab Bool.false_ne_true
    | cons d b =>
      rw [le_cons_cons] at hab hba
      rcases hab with hlt | ⟨rfl, hab⟩
      · rcases hba with hgt | ⟨rfl, hba⟩
        · omega
        · omega
      · rcases hba with hgt | ⟨_, hba⟩
        · omega
        · rw [ih hab hba]

theorem le_trans {a b c : Text} (hab : le a b = true) (hbc : le b c = true) : le a c = true := by
  induction a generalizing b c with
  | nil => rfl
  | cons x a ih =>
    cases b with
    | nil => exact absurd hab Bool.false_ne_true
    | cons y b =>
      cases c with
      | nil => exact absurd hbc Bool.false_ne_true
      | cons z c =>
        rw [le_cons_cons] at hab hbc ⊢
        rcases hab with hlt | ⟨rfl, hab⟩
        · rcases hbc with hlt' | ⟨rfl, hbc⟩
          · exact .inl (by omega)
          · exact .inl hlt
        · rcases hbc with hlt' | ⟨rfl, hbc⟩
          · exact .inl hlt'
          · exact .inr ⟨rfl, ih hab hbc⟩

/-! ### Searching -/

/-- `str::contains` of a text. -/
def contains_text (t pattern : Text) : Bool := t.tails.any pattern.isPrefixOf

theorem contains_text_append (a b : Text) {pattern : Text} (h : pattern.isPrefixOf b = true) :
    contains_text (a ++ b) pattern = true := by
  induction a with
  | nil =>
    cases b with
    | nil =>
      show (pattern.isPrefixOf [] || false) = true
      rw [h, Bool.true_or]
    | cons c b =>
      show (pattern.isPrefixOf (c :: b) || b.tails.any pattern.isPrefixOf) = true
      rw [h, Bool.true_or]
  | cons c a ih =>
    show (pattern.isPrefixOf (c :: (a ++ b)) || (a ++ b).tails.any pattern.isPrefixOf) = true
    have hrest : (a ++ b).tails.any pattern.isPrefixOf = true := ih
    rw [hrest, Bool.or_true]

/-- `str::starts_with` of a text. -/
def starts_with (t pattern : Text) : Bool := pattern.isPrefixOf t

/-- `str::strip_prefix`. -/
def strip_leading : Text → Text → Option Text
  | t, [] => some t
  | [], _ :: _ => none
  | c :: t, p :: pattern => if c = p then strip_leading t pattern else none

theorem strip_leading_append (pattern t : Text) : strip_leading (pattern ++ t) pattern = some t := by
  induction pattern with
  | nil => cases t <;> rfl
  | cons c pattern ih => simp [strip_leading, ih]

theorem strip_leading_eq_some {t pattern rest : Text} (h : strip_leading t pattern = some rest) :
    t = pattern ++ rest := by
  induction pattern generalizing t with
  | nil => cases t <;> simpa [strip_leading] using h
  | cons p pattern ih =>
    cases t with
    | nil => simp [strip_leading] at h
    | cons c t =>
      rw [strip_leading, Option.ite_none_right_eq_some] at h
      rw [h.1, ih h.2, List.cons_append]

/-- `str::strip_suffix`. -/
def strip_trailing (t pattern : Text) : Option Text :=
  (strip_leading t.reverse pattern.reverse).map List.reverse

/-- `str::rsplit_once` of a text: around its last occurrence. -/
def rsplit_once : Text → Text → Option (Text × Text)
  | [], pattern => (strip_leading [] pattern).map fun rest => ([], rest)
  | c :: t, pattern =>
      match rsplit_once t pattern with
      | some (front, rest) => some (c :: front, rest)
      | none => (strip_leading (c :: t) pattern).map fun rest => ([], rest)

/-- `str::trim_matches` of a set of characters. -/
def trim_matches (strip : Char → Bool) (t : Text) : Text :=
  (t.dropWhile strip).rdropWhile strip

/-- `str::replace` of one character. -/
def replace_char (c : Char) (by_text t : Text) : Text :=
  t.flatMap fun d => if d = c then by_text else [d]

/-! ### Splitting -/

/-- `str::split_whitespace`. -/
def split_whitespace (t : Text) : List Text :=
  (t.splitOnP is_whitespace).filter fun word => !word.isEmpty

/-- `str::split` at one character. -/
def split (separator : Char) (t : Text) : List Text := t.splitOn separator

/-- `str::split_once` at one character. -/
def split_once (separator : Char) : Text → Option (Text × Text)
  | [] => none
  | c :: t =>
      if c = separator then some ([], t)
      else (split_once separator t).map fun parts => (c :: parts.1, parts.2)

/-- Strip the carriage return that precedes a line feed. -/
def strip_carriage_return (line : Text) : Text :=
  if line.getLast? = some '\r' then line.dropLast else line

/-- `str::lines`: a line feed ends a line, together with the carriage return
    before it; what follows the last line feed is a line unless it is empty. -/
def lines (t : Text) : List Text :=
  let parts := t.splitOn '\n'
  parts.dropLast.map strip_carriage_return ++ parts.getLast?.toList.filter fun line => !line.isEmpty

/-- `[_]::join` of texts with one character. -/
def join (separator : Char) (parts : List Text) : Text := [separator].intercalate parts

/-- What precedes the first occurrence of a character is determined. -/
theorem append_cons_inj {c : Char} {a b s t : Text} (ha : c ∉ a) (hb : c ∉ b)
    (h : a ++ c :: s = b ++ c :: t) : a = b ∧ s = t := by
  induction a generalizing b with
  | nil =>
    cases b with
    | nil => exact ⟨rfl, (List.cons.inj h).2⟩
    | cons d b => exact absurd List.mem_cons_self ((List.cons.inj h).1 ▸ hb)
  | cons d a ih =>
    cases b with
    | nil => exact absurd List.mem_cons_self ((List.cons.inj h).1 ▸ ha)
    | cons e b =>
      obtain ⟨rfl, hrest⟩ := List.cons.inj h
      have hrec := ih (fun hc => ha (List.mem_cons_of_mem _ hc))
        (fun hc => hb (List.mem_cons_of_mem _ hc)) hrest
      exact ⟨congrArg _ hrec.1, hrec.2⟩

theorem splitOnP_no_separator {α : Type} {p : α → Bool} {t word : List α}
    (h : word ∈ t.splitOnP p) : ∀ c ∈ word, p c = false := by
  induction t generalizing word with
  | nil => simp_all
  | cons c t ih =>
    rw [List.splitOnP_cons_eq_if_modifyHead] at h
    by_cases hc : p c = true
    · rw [if_pos hc] at h
      rcases List.mem_cons.mp h with rfl | h
      · simp
      · exact ih h
    · rw [if_neg hc] at h
      cases hparts : t.splitOnP p with
      | nil => exact absurd hparts (List.splitOnP_ne_nil _ _)
      | cons first rest =>
        rw [hparts, List.modifyHead_cons] at h
        rcases List.mem_cons.mp h with rfl | h
        · intro d hd
          rcases List.mem_cons.mp hd with rfl | hd
          · simpa using hc
          · exact ih (by simp [hparts]) d hd
        · exact ih (by simp [hparts, h])

theorem splitOnP_subset {α : Type} {p : α → Bool} {t word : List α} (h : word ∈ t.splitOnP p) :
    ∀ c ∈ word, c ∈ t := by
  induction t generalizing word with
  | nil => simp_all
  | cons c t ih =>
    rw [List.splitOnP_cons_eq_if_modifyHead] at h
    split at h
    · rcases List.mem_cons.mp h with rfl | h
      · simp
      · exact fun d hd => List.mem_cons_of_mem _ (ih h d hd)
    · cases hparts : t.splitOnP p with
      | nil => exact absurd hparts (List.splitOnP_ne_nil _ _)
      | cons first rest =>
        rw [hparts, List.modifyHead_cons] at h
        rcases List.mem_cons.mp h with rfl | h
        · intro d hd
          rcases List.mem_cons.mp hd with rfl | hd
          · exact List.mem_cons_self
          · exact List.mem_cons_of_mem _ (ih (by simp [hparts]) d hd)
        · exact fun d hd => List.mem_cons_of_mem _ (ih (by simp [hparts, h]) d hd)

/-- Splitting commutes with a map that the separators respect. -/
theorem splitOnP_map {α β : Type} {f : α → β} {p : α → Bool} {q : β → Bool} {xs : List α}
    (h : ∀ x ∈ xs, q (f x) = p x) : (xs.map f).splitOnP q = (xs.splitOnP p).map (List.map f) := by
  induction xs with
  | nil => rfl
  | cons x xs ih =>
    obtain ⟨hx, hxs⟩ := List.forall_mem_cons.mp h
    rw [List.map_cons, List.splitOnP_cons_eq_if_modifyHead, List.splitOnP_cons_eq_if_modifyHead,
      hx, ih hxs]
    split
    · rfl
    · cases hparts : xs.splitOnP p with
      | nil => exact absurd hparts (List.splitOnP_ne_nil _ _)
      | cons first rest => rfl

/-- A field has no white space and is not empty. -/
theorem mem_split_whitespace {t word : Text} (h : word ∈ t.split_whitespace) :
    word ≠ [] ∧ ∀ c ∈ word, is_whitespace c = false := by
  obtain ⟨hmem, hne⟩ := List.mem_filter.mp h
  exact ⟨by simpa using hne, splitOnP_no_separator hmem⟩

@[simp] theorem split_whitespace_nil : split_whitespace [] = [] := by
  simp [split_whitespace]

/-- White space between two texts separates their fields. -/
theorem split_whitespace_append_cons (a b : Text) {c : Char} (hc : is_whitespace c = true) :
    split_whitespace (a ++ c :: b) = split_whitespace a ++ split_whitespace b := by
  simp [split_whitespace, List.splitOnP_append_cons _ _ hc]

/-- A non-empty text without white space is one field. -/
theorem split_whitespace_word {word : Text} (hne : word ≠ [])
    (h : ∀ c ∈ word, is_whitespace c = false) : split_whitespace word = [word] := by
  simp [split_whitespace, List.splitOnP_eq_singleton h, hne]

/-! ### Truncation -/

theorem truncate_at_prefix (limit : Nat) (t : Text) : truncate_at limit t <+: t := by
  induction t generalizing limit with
  | nil => exact List.prefix_rfl
  | cons c t ih =>
    unfold truncate_at
    split
    · exact List.cons_prefix_cons.mpr ⟨rfl, ih _⟩
    · exact List.nil_prefix

theorem truncate_at_len (limit : Nat) (t : Text) : (truncate_at limit t).len ≤ limit := by
  induction t generalizing limit with
  | nil => exact Nat.zero_le _
  | cons c t ih =>
    unfold truncate_at
    split
    · have hrest := ih (limit - c.utf8Size)
      rw [len_cons]
      omega
    · exact Nat.zero_le _

/-- A start that fits is kept. -/
theorem truncate_at_append {limit : Nat} {a : Text} (b : Text) (h : a.len ≤ limit) :
    truncate_at limit (a ++ b) = a ++ truncate_at (limit - a.len) b := by
  induction a generalizing limit with
  | nil => rfl
  | cons c a ih =>
    rw [len_cons] at h
    have hrest := @ih (limit - c.utf8Size) (by omega)
    have hfirst : truncate_at limit (c :: (a ++ b)) =
        c :: truncate_at (limit - c.utf8Size) (a ++ b) := if_pos (by omega)
    rw [List.cons_append, hfirst, hrest, len_cons, Nat.sub_sub]
    rfl

/-- What follows a start that does not fit is dropped. -/
theorem truncate_at_append_of_lt {limit : Nat} {a : Text} (b : Text) (h : limit < a.len) :
    truncate_at limit (a ++ b) = truncate_at limit a := by
  induction a generalizing limit with
  | nil => exact absurd h (Nat.not_lt_zero _)
  | cons c a ih =>
    rw [len_cons] at h
    rw [List.cons_append]
    unfold truncate_at
    split
    · rw [ih (by omega)]
    · rfl

/-- The first character that is dropped does not fit. -/
theorem truncate_at_next {limit : Nat} {t : Text} (h : limit < t.len) :
    ∃ c rest, t = truncate_at limit t ++ c :: rest ∧
      limit - (truncate_at limit t).len < c.utf8Size := by
  induction t generalizing limit with
  | nil => exact absurd h (Nat.not_lt_zero _)
  | cons d t ih =>
    rw [len_cons] at h
    unfold truncate_at
    split
    · next hfits =>
      obtain ⟨c, rest, hrest, hnext⟩ := @ih (limit - d.utf8Size) (by omega)
      refine ⟨c, rest, ?_, ?_⟩
      · rw [List.cons_append, ← hrest]
      · rw [len_cons]
        omega
    · next hfits =>
      refine ⟨d, t, rfl, ?_⟩
      rw [len_nil]
      omega

/-- A last character that does not fit is dropped. -/
theorem truncate_at_snoc {limit : Nat} {a : Text} {c : Char} (h : limit < (a ++ [c]).len) :
    truncate_at limit (a ++ [c]) <+: a := by
  rw [len_append, len_cons, len_nil] at h
  by_cases hfits : a.len ≤ limit
  · have hnone : truncate_at (limit - a.len) [c] = [] := if_neg (by omega)
    rw [truncate_at_append _ hfits, hnone]
    exact (List.append_nil a).symm ▸ List.prefix_refl a
  · rw [truncate_at_append_of_lt _ (by omega)]
    exact truncate_at_prefix limit a

/-- The first character that is kept fits. -/
theorem truncate_at_first {limit : Nat} {t : Text} (h : truncate_at limit t ≠ []) :
    ∃ c rest, truncate_at limit t = c :: rest ∧ c.utf8Size ≤ limit := by
  cases t with
  | nil => exact absurd rfl h
  | cons c t =>
    unfold truncate_at at h ⊢
    split at h
    · next hfits =>
      rw [if_pos hfits]
      exact ⟨c, _, rfl, hfits⟩
    · exact absurd rfl h

end Text
