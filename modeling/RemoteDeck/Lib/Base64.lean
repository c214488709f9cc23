import Mathlib.Algebra.Group.Nat.Defs
import Mathlib.Data.List.Induction
import RemoteDeck.Lib.Text

/-! # Base64

    Bytes are written as a sequence of bits, which is cut into groups of six;
    the last group is filled up with zeros.  Each group is a character of the
    standard alphabet, and the text may be filled up to a multiple of four
    characters.

    This file defines:
    - `bits` and `value`: numbers and their binary digits
    - `sextets`: the groups of six
    - `encode_no_pad` and `encode`: the encoding without and with padding
-/

namespace Base64

/-! ### Binary digits -/

/-- The last `width` binary digits of a number, the highest first. -/
def bits : Nat → Nat → List Bool
  | 0, _ => []
  | width + 1, n => bits width (n / 2) ++ [decide (n % 2 = 1)]

/-- The number of some binary digits. -/
def value (digits : List Bool) : Nat := digits.foldl (fun n digit => 2 * n + digit.toNat) 0

@[simp] theorem length_bits (width n : Nat) : (bits width n).length = width := by
  induction width generalizing n with
  | zero => rfl
  | succ width ih => simp [bits, ih]

theorem bits_add (high low n : Nat) :
    bits (high + low) n = bits high (n / 2 ^ low) ++ bits low n := by
  induction low generalizing n with
  | zero => simp [bits]
  | succ low ih =>
    rw [← Nat.add_assoc, bits, bits, ih, List.append_assoc, Nat.div_div_eq_div_mul, Nat.pow_succ,
      Nat.mul_comm 2]

theorem bits_mod (width n : Nat) : bits width (n % 2 ^ width) = bits width n := by
  induction width generalizing n with
  | zero => rfl
  | succ width ih =>
    have hdiv : n % 2 ^ (width + 1) / 2 = n / 2 % 2 ^ width := by
      rw [Nat.pow_succ, Nat.mod_mul_left_div_self]
    have hmod : n % 2 ^ (width + 1) % 2 = n % 2 := by
      rw [Nat.pow_succ, Nat.mod_mul_left_mod]
    rw [bits, bits, hdiv, hmod, ih]

/-- Digits behind digits. -/
theorem bits_join (high x : Nat) {low y : Nat} (h : y < 2 ^ low) :
    bits high x ++ bits low y = bits (high + low) (x * 2 ^ low + y) := by
  have hdiv : (x * 2 ^ low + y) / 2 ^ low = x := by
    rw [Nat.mul_comm, Nat.mul_add_div (Nat.two_pow_pos low), Nat.div_eq_of_lt h, Nat.add_zero]
  have hmod : (x * 2 ^ low + y) % 2 ^ low = y := by
    rw [Nat.mul_add_mod_self_right, Nat.mod_eq_of_lt h]
  rw [bits_add, hdiv, ← bits_mod low (x * 2 ^ low + y), hmod]

theorem bits_zero (width : Nat) : bits width 0 = List.replicate width false := by
  induction width with
  | zero => rfl
  | succ width ih => simp [bits, ih, List.replicate_succ']

@[simp] theorem value_nil : value [] = 0 := rfl

theorem value_concat (digits : List Bool) (digit : Bool) :
    value (digits ++ [digit]) = 2 * value digits + digit.toNat := by
  simp [value]

theorem value_lt (digits : List Bool) : value digits < 2 ^ digits.length := by
  induction digits using List.reverseRecOn with
  | nil => simp
  | append_singleton digits digit ih =>
    have hdigit : digit.toNat ≤ 1 := Bool.toNat_le digit
    rw [value_concat, List.length_append, List.length_singleton, Nat.pow_succ]
    omega

theorem bits_value (digits : List Bool) : bits digits.length (value digits) = digits := by
  induction digits using List.reverseRecOn with
  | nil => rfl
  | append_singleton digits digit ih =>
    have hdigit : digit.toNat ≤ 1 := Bool.toNat_le digit
    have hdiv : (2 * value digits + digit.toNat) / 2 = value digits := by omega
    have hmod : decide ((2 * value digits + digit.toNat) % 2 = 1) = digit := by
      cases digit <;> simp
    rw [value_concat, List.length_append, List.length_singleton, bits, hdiv, hmod, ih]

theorem value_bits (width n : Nat) : value (bits width n) = n % 2 ^ width := by
  induction width generalizing n with
  | zero => simp [bits, Nat.mod_one]
  | succ width ih =>
    have hdigit : (decide (n % 2 = 1)).toNat = n % 2 := by
      rcases Nat.mod_two_eq_zero_or_one n with h | h <;> simp [h]
    rw [bits, value_concat, ih, hdigit, Nat.pow_succ, Nat.mul_comm (2 ^ width), Nat.mod_mul]
    omega

/-- Numbers that fit are told apart by their digits. -/
theorem bits_inj {width n m : Nat} (hn : n < 2 ^ width) (hm : m < 2 ^ width)
    (h : bits width n = bits width m) : n = m := by
  have hvalue := congrArg value h
  rwa [value_bits, value_bits, Nat.mod_eq_of_lt hn, Nat.mod_eq_of_lt hm] at hvalue

/-! ### Groups of six -/

/-- The groups of six digits; a last group of fewer is filled up with zeros. -/
def sextets : List Bool → List Nat
  | a :: b :: c :: d :: e :: f :: rest => value [a, b, c, d, e, f] :: sextets rest
  | [] => []
  | short => [value (short ++ List.replicate (6 - short.length) false)]

theorem sextets_append {group : List Bool} (h : group.length = 6) (rest : List Bool) :
    sextets (group ++ rest) = value group :: sextets rest := by
  match group, h with
  | [a, b, c, d, e, f], _ => rfl

theorem sextets_short {short : List Bool} (hne : short ≠ []) (h : short.length < 6) :
    sextets short = [value (short ++ List.replicate (6 - short.length) false)] := by
  match short, hne, h with
  | [a], _, _ => rfl
  | [a, b], _, _ => rfl
  | [a, b, c], _, _ => rfl
  | [a, b, c, d], _, _ => rfl
  | [a, b, c, d, e], _, _ => rfl

theorem length_groups (groups : List Nat) :
    (groups.flatMap (bits 6)).length = 6 * groups.length := by
  induction groups with
  | nil => rfl
  | cons group groups ih =>
    rw [List.flatMap_cons, List.length_append, length_bits, ih, List.length_cons]
    omega

theorem sextets_group {group : Nat} (h : group < 64) (rest : List Bool) :
    sextets (bits 6 group ++ rest) = group :: sextets rest := by
  have hmod : group % 2 ^ 6 = group := Nat.mod_eq_of_lt h
  rw [sextets_append (length_bits 6 group), value_bits, hmod]

/-- A last group of fewer digits. -/
theorem sextets_last {width : Nat} (hpos : 0 < width) (h : width < 6) (n : Nat) :
    sextets (bits width n) = [n % 2 ^ width * 2 ^ (6 - width)] := by
  have hne : bits width n ≠ [] := by
    intro hnil
    have hlength := congrArg List.length hnil
    simp at hlength
    omega
  have hfilled : bits width n ++ List.replicate (6 - width) false =
      bits 6 (n % 2 ^ width * 2 ^ (6 - width)) := by
    rw [← bits_zero, ← bits_mod width n, bits_join _ _ (Nat.two_pow_pos _), Nat.add_zero]
    congr 1
    omega
  have hlt : n % 2 ^ width * 2 ^ (6 - width) < 2 ^ 6 := by
    have hpow : 2 ^ 6 = 2 ^ width * 2 ^ (6 - width) := by
      rw [← Nat.pow_add]
      congr 1
      omega
    rw [hpow]
    exact Nat.mul_lt_mul_of_pos_right (Nat.mod_lt _ (Nat.two_pow_pos _)) (Nat.two_pow_pos _)
  rw [sextets_short hne (by simpa using h), length_bits, hfilled, value_bits, Nat.mod_eq_of_lt hlt]

/-- The groups of digits, from the groups and what fills up the last one. -/
theorem sextets_eq {digits : List Bool} {groups : List Nat} {fill : Nat} (hfill : fill < 6)
    (hgroups : ∀ group ∈ groups, group < 64)
    (h : digits ++ List.replicate fill false = groups.flatMap (bits 6)) :
    sextets digits = groups := by
  induction groups generalizing digits with
  | nil =>
    have hnil : digits = [] := (List.append_eq_nil_iff.mp h).1
    rw [hnil]
    rfl
  | cons group groups ih =>
    obtain ⟨hgroup, hothers⟩ := List.forall_mem_cons.mp hgroups
    have hvalue : value (bits 6 group) = group := by
      rw [value_bits]
      omega
    rw [List.flatMap_cons] at h
    by_cases hlength : 6 ≤ digits.length
    · -- a whole group
      have htake : digits.take 6 = bits 6 group := by
        have hfront := congrArg (List.take 6) h
        rw [List.take_append_of_le_length hlength, List.take_left' (length_bits 6 group)] at hfront
        exact hfront
      have hdrop : digits.drop 6 ++ List.replicate fill false = groups.flatMap (bits 6) := by
        have hback := congrArg (List.drop 6) h
        rw [List.drop_append_of_le_length hlength, List.drop_left' (length_bits 6 group)] at hback
        exact hback
      rw [← List.take_append_drop 6 digits, htake, sextets_append (length_bits 6 group), hvalue,
        ih hothers hdrop]
    · -- the last group: what fills it up is less than a group
      have hcount := congrArg List.length h
      rw [List.length_append, List.length_append, List.length_replicate, length_bits,
        length_groups] at hcount
      have hlast : groups = [] := by
        cases groups with
        | nil => rfl
        | cons other groups =>
          rw [List.length_cons] at hcount
          omega
      subst hlast
      have hne : digits ≠ [] := by
        rintro rfl
        simp at hcount
        omega
      have hzeros : 6 - digits.length = fill := by
        simp at hcount
        omega
      rw [sextets_short hne (by omega), hzeros, h, List.flatMap_nil, List.append_nil, hvalue]

/-- The digits that the groups hold, and those that fill up the last group. -/
theorem sextets_bits (digits : List Bool) :
    (∃ fill < 6, (sextets digits).flatMap (bits 6) = digits ++ List.replicate fill false) ∧
      ∀ group ∈ sextets digits, group < 64 := by
  induction hlength : digits.length using Nat.strong_induction_on generalizing digits with
  | _ length ih =>
    by_cases hwhole : 6 ≤ digits.length
    · have hgroup : (digits.take 6).length = 6 := by
        rw [List.length_take]
        omega
      obtain ⟨⟨fill, hfill, hrest⟩, hsmall⟩ :=
        ih (digits.drop 6).length (by rw [List.length_drop]; omega) (digits.drop 6) rfl
      have hbits : bits 6 (value (digits.take 6)) = digits.take 6 := by
        have hsame := bits_value (digits.take 6)
        rwa [hgroup] at hsame
      rw [← List.take_append_drop 6 digits, sextets_append hgroup]
      refine ⟨⟨fill, hfill, ?_⟩, ?_⟩
      · rw [List.flatMap_cons, hrest, hbits, List.append_assoc]
      · intro group hmem
        rcases List.mem_cons.mp hmem with rfl | hmem
        · have hlt := value_lt (digits.take 6)
          rw [hgroup] at hlt
          exact hlt
        · exact hsmall group hmem
    · rcases eq_or_ne digits [] with rfl | hne
      · exact ⟨⟨0, by omega, rfl⟩, List.forall_mem_nil _⟩
      · have hfilled : (digits ++ List.replicate (6 - digits.length) false).length = 6 := by
          simp
          omega
        have hpos := List.length_pos_of_ne_nil hne
        have hbits := bits_value (digits ++ List.replicate (6 - digits.length) false)
        have hlt := value_lt (digits ++ List.replicate (6 - digits.length) false)
        rw [hfilled] at hbits hlt
        rw [sextets_short hne (by omega)]
        refine ⟨⟨6 - digits.length, by omega, ?_⟩, ?_⟩
        · rw [List.flatMap_cons, hbits, List.flatMap_nil, List.append_nil]
        · simpa using hlt

/-! ### Characters -/

/-- The standard alphabet. -/
def alphabet : List Char :=
  "ABCDEFGHIJKLMNOPQRSTUVWXYZabcdefghijklmnopqrstuvwxyz0123456789+/".toList

def character (group : Nat) : Char := alphabet.getD group '='

/-- The digits of some bytes. -/
def digits (bytes : List UInt8) : List Bool := bytes.flatMap fun byte => bits 8 byte.toNat

/-- The encoding without padding. -/
def encode_no_pad (bytes : List UInt8) : Text := (sextets (digits bytes)).map character

/-- The encoding, filled up to a multiple of four characters. -/
def encode (bytes : List UInt8) : Text :=
  let text := encode_no_pad bytes
  text ++ List.replicate ((4 - text.length % 4) % 4) '='

theorem length_digits (bytes : List UInt8) : (digits bytes).length = 8 * bytes.length := by
  simp [digits, List.length_flatMap, Nat.mul_comm]

/-- Bytes are told apart by their digits. -/
theorem digits_inj {bytes bytes' : List UInt8} (h : digits bytes = digits bytes') :
    bytes = bytes' := by
  induction bytes generalizing bytes' with
  | nil =>
    have hlength := congrArg List.length h
    rw [length_digits, length_digits, List.length_nil] at hlength
    exact (List.eq_nil_of_length_eq_zero (by omega)).symm
  | cons byte bytes ih =>
    cases bytes' with
    | nil => simp [digits, bits] at h
    | cons byte' bytes' =>
      obtain ⟨hbyte, hrest⟩ := List.append_inj (show bits 8 byte.toNat ++ digits bytes =
        bits 8 byte'.toNat ++ digits bytes' from h) (by simp)
      rw [UInt8.toNat_inj.mp (bits_inj byte.toNat_lt byte'.toNat_lt hbyte), ih hrest]

/-- The encoding has four characters for three bytes, rounded up. -/
theorem length_encode_no_pad (bytes : List UInt8) :
    (encode_no_pad bytes).length = (4 * bytes.length + 2) / 3 := by
  obtain ⟨⟨fill, hfill, hbits⟩, -⟩ := sextets_bits (digits bytes)
  have hlength := congrArg List.length hbits
  rw [length_groups, List.length_append, length_digits, List.length_replicate] at hlength
  unfold encode_no_pad
  rw [List.length_map]
  omega

end Base64
