import Mathlib.Data.List.Forall2
import Mathlib.Order.Lattice
import RemoteDeck.Lib.Glob
import RemoteDeck.Lib.Utf8

/-! # The patterns of known_hosts

    `known_hosts_pattern_matches` of `ssh.rs` walks over the bytes of a pattern
    and a value, and remembers the last `*` to go back to.  As in OpenSSH, a
    character of a pattern is a byte.

    The loop compares bytes before it looks for a `*`, so a `*` of the pattern
    that meets a `*` of the value stands for that byte only.  What it finds are
    the plain matches (`pattern_matches_plainly`); it agrees with the rules
    where a value that matches does so plainly.
-/

namespace Ssh

/-- The byte of `*`. -/
def STAR : UInt8 := 42

/-- The byte of `?`. -/
def ANY : UInt8 := 63

def to_ascii_lowercase (byte : UInt8) : UInt8 := if 65 ≤ byte ∧ byte ≤ 90 then byte + 32 else byte

def eq_ignore_ascii_case (a b : UInt8) : Bool := to_ascii_lowercase a = to_ascii_lowercase b

/-- The pattern's next byte stands for a byte of the value. -/
def compares (pattern : List UInt8) (byte : UInt8) : Bool :=
  pattern.head?.any fun symbol => symbol = ANY || eq_ignore_ascii_case symbol byte

theorem tail_shortens {pattern : List UInt8} (h : pattern ≠ []) :
    pattern.tail.length < pattern.length := by
  have hpos := List.length_pos_of_ne_nil h
  rw [List.length_tail]
  omega

/-- The first loop: the pattern and the value from their cursors on, and for the
    last wildcard, the pattern behind it and the value it was last tried at. -/
def pattern_loop (pattern value : List UInt8) (wildcard : Option (List UInt8 × List UInt8)) :
    Bool :=
  match value with
  | [] => (pattern.dropWhile (· = STAR)).isEmpty
  | byte :: rest =>
      if _hsame : compares pattern byte then
        pattern_loop pattern.tail rest wildcard
      else if _hstar : pattern.head? = some STAR then
        pattern_loop pattern.tail (byte :: rest) (some (pattern.tail, byte :: rest))
      else
        match wildcard with
        | some (after, _ :: tried) => pattern_loop after tried (some (after, tried))
        | _ => false
termination_by (max value.length (wildcard.elim 0 fun tried => tried.2.length), pattern.length)
decreasing_by
  · -- both cursors advance
    have hne : pattern ≠ [] := by
      rintro rfl
      simp [compares] at _hsame
    exact Prod.Lex.right' _ (by simp only [List.length_cons]; omega) (tail_shortens hne)
  · -- a wildcard is remembered no further back
    have hne : pattern ≠ [] := by
      rintro rfl
      simp at _hstar
    exact Prod.Lex.right' _ (by simp) (tail_shortens hne)
  · -- the wildcard takes one byte more
    exact Prod.Lex.left _ _ (by simp only [Option.elim_some, List.length_cons]; omega)

def known_hosts_pattern_matches (pattern value : Text) : Bool :=
  pattern_loop pattern.utf8 value.utf8 none

section
variable {pattern rest : List UInt8} {byte : UInt8} {wildcard : Option (List UInt8 × List UInt8)}

theorem loop_same (hsame : compares pattern byte = true) :
    pattern_loop pattern (byte :: rest) wildcard = pattern_loop pattern.tail rest wildcard := by
  rw [pattern_loop.eq_def]
  exact dif_pos hsame

theorem loop_star (hsame : ¬ compares pattern byte = true) (hstar : pattern.head? = some STAR) :
    pattern_loop pattern (byte :: rest) wildcard =
      pattern_loop pattern.tail (byte :: rest) (some (pattern.tail, byte :: rest)) := by
  rw [pattern_loop.eq_def]
  exact (dif_neg hsame).trans (dif_pos hstar)

theorem loop_back (hsame : ¬ compares pattern byte = true) (hstar : ¬ pattern.head? = some STAR) :
    pattern_loop pattern (byte :: rest) wildcard =
      match wildcard with
      | some (after, _ :: tried) => pattern_loop after tried (some (after, tried))
      | _ => false := by
  rw [pattern_loop.eq_def]
  exact (dif_neg hsame).trans (dif_neg hstar)

end

/-! ### What the loop finds -/

/-- The rules of OpenSSH: bytes for characters, letters without case. -/
def PatternMatches : List UInt8 → List UInt8 → Prop :=
  Glob.Matches STAR ANY fun a b => eq_ignore_ascii_case a b = true

/-- The value matches, and no `*` stands for more or less than the `*` of the
    value that it meets. -/
def MatchesPlainly : List UInt8 → List UInt8 → Prop :=
  Glob.Plainly STAR ANY fun a b => eq_ignore_ascii_case a b = true

/-- The cursors stand behind the last wildcard: what lies between was matched
    byte by byte. -/
def Behind (after tried pattern value : List UInt8) : Prop :=
  ∃ front part, after = front ++ pattern ∧ tried = part ++ value ∧
    Glob.Equals STAR ANY (fun a b => eq_ignore_ascii_case a b = true) front part

theorem eq_ignore_star {byte : UInt8} (h : eq_ignore_ascii_case STAR byte = true) : byte = STAR := by
  have hall : ∀ n < 256, eq_ignore_ascii_case STAR (UInt8.ofNat n) = true → UInt8.ofNat n = STAR := by
    decide +kernel
  have hbyte := hall byte.toNat byte.toNat_lt
  rw [UInt8.ofNat_toNat] at hbyte
  exact hbyte h

/-- A symbol that is compared stands for the byte. -/
theorem plainly_same {symbol byte : UInt8} {pattern value : List UInt8}
    (h : (symbol = ANY || eq_ignore_ascii_case symbol byte) = true) :
    MatchesPlainly (symbol :: pattern) (byte :: value) ↔ MatchesPlainly pattern value := by
  by_cases hstar : symbol = STAR
  · subst hstar
    have hbyte : byte = STAR := eq_ignore_star (by simpa [STAR, ANY] using h)
    subst hbyte
    exact Glob.plainly_star_star
  · have hsame : symbol = ANY ∨ eq_ignore_ascii_case symbol byte = true := by simpa using h
    exact (Glob.one_iff hstar).trans (and_iff_right hsame)

/-- A byte that is neither compared nor met by a `*`. -/
theorem not_plainly {byte : UInt8} {pattern : List UInt8} (value : List UInt8)
    (hsame : ¬ compares pattern byte = true)
    (hstar : pattern.head? ≠ some STAR) : ¬ MatchesPlainly pattern (byte :: value) := by
  cases pattern with
  | nil => exact Glob.not_nil_cons
  | cons symbol pattern =>
    intro h
    have hsymbol : symbol ≠ STAR := fun heq => hstar (by rw [heq]; rfl)
    obtain ⟨hone, -⟩ := (Glob.one_iff hsymbol).mp h
    exact hsame (by simpa [compares] using hone)

theorem pattern_loop_iff {pattern value : List UInt8} {wildcard : Option (List UInt8 × List UInt8)}
    (h : ∀ after tried, wildcard = some (after, tried) → Behind after tried pattern value) :
    pattern_loop pattern value wildcard = true ↔
      MatchesPlainly pattern value ∨
        ∃ after tried rest, wildcard = some (after, tried) ∧ rest <:+ tried.tail ∧
          MatchesPlainly after rest := by
  induction pattern, value, wildcard using pattern_loop.induct with
  | case1 pattern wildcard =>
    have hstars : MatchesPlainly pattern [] ↔ ∀ symbol ∈ pattern, symbol = STAR := Glob.plainly_nil
    rw [pattern_loop, List.isEmpty_iff, List.dropWhile_eq_nil_iff]
    simp only [decide_eq_true_eq]
    rw [← hstars]
    -- at the end of the value, no earlier wildcard does better
    refine ⟨.inl, ?_⟩
    rintro (hplain | ⟨after, tried, rest, hwildcard, hrest, hplain⟩)
    · exact hplain
    · obtain ⟨front, part, rfl, rfl, hequal⟩ := h after tried hwildcard
      obtain ⟨last, hlast, hplain⟩ :=
        Glob.Plainly.overtake hequal (hrest.trans (List.tail_suffix _)) hplain
      rw [List.suffix_nil.mp hlast] at hplain
      exact hplain
  | case2 pattern wildcard byte rest hsame ih =>
    cases pattern with
    | nil => simp [compares] at hsame
    | cons symbol pattern =>
      have hone : (symbol = ANY || eq_ignore_ascii_case symbol byte) = true := by
        simpa [compares] using hsame
      rw [loop_same hsame, List.tail_cons, plainly_same hone]
      refine ih ?_
      intro after tried hwildcard
      obtain ⟨front, part, rfl, rfl, hequal⟩ := h after tried hwildcard
      refine ⟨front ++ [symbol], part ++ [byte], by simp, by simp, ?_⟩
      refine List.rel_append hequal (.cons ⟨?_, fun _ => by simpa using hone⟩ .nil)
      rintro rfl
      exact eq_ignore_star (by simpa [STAR, ANY] using hone)
  | case3 pattern wildcard byte rest hsame hstar ih =>
    cases pattern with
    | nil => simp at hstar
    | cons symbol pattern =>
      obtain rfl : symbol = STAR := by simpa using hstar
      have hbyte : (byte :: rest).head? ≠ some STAR := by
        intro heq
        obtain rfl : byte = STAR := by simpa using heq
        exact hsame (by simp [compares, eq_ignore_ascii_case])
      have hplainly : MatchesPlainly (STAR :: pattern) (byte :: rest) ↔
          ∃ later, later <:+ byte :: rest ∧ MatchesPlainly pattern later := Glob.plainly_star hbyte
      rw [List.tail_cons] at ih
      rw [loop_star hsame hstar, List.tail_cons, ih ?_]
      · constructor
        · rintro (hplain | ⟨after, tried, later, hwildcard, hlater, hplain⟩)
          · exact .inl (hplainly.mpr ⟨_, List.suffix_rfl, hplain⟩)
          · cases hwildcard
            exact .inl (hplainly.mpr ⟨later, hlater.trans (List.tail_suffix _), hplain⟩)
        · -- what an earlier wildcard finds, the new one finds too
          intro hor
          have hfound : ∃ later, later <:+ byte :: rest ∧ MatchesPlainly pattern later := by
            rcases hor with hplain | ⟨after, tried, later, hwildcard, hlater, hplain⟩
            · exact hplainly.mp hplain
            · obtain ⟨front, part, rfl, rfl, hequal⟩ := h after tried hwildcard
              obtain ⟨last, hlast, hplain⟩ :=
                Glob.Plainly.overtake hequal (hlater.trans (List.tail_suffix _)) hplain
              obtain ⟨skipped, left, rfl, -, hplain⟩ := Glob.star_iff.mp hplain
              exact ⟨left, (List.suffix_append _ _).trans hlast, hplain⟩
          obtain ⟨later, hlater, hplain⟩ := hfound
          rcases List.suffix_cons_iff.mp hlater with rfl | hlater
          · exact .inl hplain
          · exact .inr ⟨pattern, byte :: rest, later, rfl, hlater, hplain⟩
      · intro after tried hwildcard
        cases hwildcard
        exact ⟨[], [], rfl, rfl, .nil⟩
  | case4 pattern byte rest hsame hstar after first tried ih =>
    have hnot := not_plainly rest hsame hstar
    rw [loop_back hsame hstar, ih ?_]
    · constructor
      · rintro (hplain | ⟨after', tried', later, hwildcard, hlater, hplain⟩)
        · exact .inr ⟨after, first :: tried, tried, rfl, List.suffix_rfl, hplain⟩
        · cases hwildcard
          exact .inr ⟨after, first :: tried, later, rfl, hlater.trans (List.tail_suffix _), hplain⟩
      · rintro (hplain | ⟨after', tried', later, hwildcard, hlater, hplain⟩)
        · exact absurd hplain hnot
        · cases hwildcard
          cases tried with
          | nil =>
            rw [List.suffix_nil.mp hlater] at hplain
            exact .inl hplain
          | cons second tried =>
            rcases List.suffix_cons_iff.mp hlater with rfl | hlater
            · exact .inl hplain
            · exact .inr ⟨after, second :: tried, later, rfl, hlater, hplain⟩
    · intro after' tried' hwildcard
      cases hwildcard
      exact ⟨[], [], rfl, rfl, .nil⟩
  | case5 pattern wildcard byte rest hsame hstar hnone =>
    have hnot := not_plainly rest hsame hstar
    rw [loop_back hsame hstar]
    constructor
    · intro hfalse
      split at hfalse
      · exact absurd rfl (hnone _ _ _)
      · cases hfalse
    · rintro (hplain | ⟨after, tried, later, hwildcard, hlater, hplain⟩)
      · exact absurd hplain hnot
      · obtain ⟨front, part, rfl, rfl, hequal⟩ := h after tried hwildcard
        cases part with
        | nil => exact absurd hwildcard fun heq => hnone _ _ _ heq
        | cons first part => exact absurd hwildcard (hnone _ _ _)

/-- The loop finds the plain matches. -/
theorem pattern_matches_plainly (pattern value : Text) :
    known_hosts_pattern_matches pattern value = true ↔
      MatchesPlainly pattern.utf8 value.utf8 := by
  unfold known_hosts_pattern_matches
  rw [pattern_loop_iff (by simp)]
  simp

/-- The matcher follows the rules where a value that matches does so plainly. -/
theorem pattern_matches_iff (pattern value : Text) :
    (known_hosts_pattern_matches pattern value = true ↔ PatternMatches pattern.utf8 value.utf8) ↔
      (PatternMatches pattern.utf8 value.utf8 → MatchesPlainly pattern.utf8 value.utf8) := by
  rw [pattern_matches_plainly]
  constructor
  · intro h
    exact h.mpr
  · intro h
    exact ⟨Glob.Plainly.matches, h⟩

/-- The star is compared with the star, and nothing is left for the letter. -/
theorem star_misses_star :
    known_hosts_pattern_matches "*".toList "*a".toList = false ∧
      PatternMatches (Text.utf8 "*".toList) (Text.utf8 "*a".toList) := by
  constructor
  · show pattern_loop [STAR] [STAR, 97] none = false
    rw [loop_same (by decide), List.tail_cons, loop_back (by decide) (by decide)]
  · exact .star (Text.utf8 "*a".toList) trivial .done

end Ssh
