import Mathlib.Algebra.Group.Nat.Defs
import RemoteDeck.Lib.Utf8

/-! # Hexadecimal

    Bytes written as two hexadecimal digits each, and read again.

    This file defines:
    - `encode`: two lower-case digits for every byte
    - `decode`: the bytes of an even number of digits of either case

    What is written is read (`decode_encode`).
-/

namespace Hex

/-- Two lower-case digits for every byte. -/
def encode : List UInt8 → Text
  | [] => []
  | byte :: bytes => (byte.toNat / 16).digitChar :: (byte.toNat % 16).digitChar :: encode bytes

/-- The value of a digit. -/
def nibble (byte : UInt8) : Option Nat :=
  if '0'.toNat ≤ byte.toNat ∧ byte.toNat ≤ '9'.toNat then some (byte.toNat - '0'.toNat)
  else if 'a'.toNat ≤ byte.toNat ∧ byte.toNat ≤ 'f'.toNat then some (byte.toNat - 'a'.toNat + 10)
  else if 'A'.toNat ≤ byte.toNat ∧ byte.toNat ≤ 'F'.toNat then some (byte.toNat - 'A'.toNat + 10)
  else none

/-- The bytes of the pairs of digits. -/
def decode : List UInt8 → Option (List UInt8)
  | [] => some []
  | [_] => none
  | first :: second :: rest => do
      let high ← nibble first
      let low ← nibble second
      let bytes ← decode rest
      some (UInt8.ofNat (16 * high + low) :: bytes)

/-! ### Digits -/

theorem digitChar_ascii {n : Nat} (h : n < 16) : n.digitChar.toNat < 128 := by
  revert n
  decide

theorem nibble_digitChar {n : Nat} (h : n < 16) :
    nibble (UInt8.ofNat n.digitChar.toNat) = some n := by
  revert n
  decide

/-! ### Reading what is written -/

theorem length_encode (bytes : List UInt8) : (encode bytes).length = 2 * bytes.length := by
  induction bytes with
  | nil => rfl
  | cons byte bytes ih =>
    simp only [encode, List.length_cons, ih]
    omega

theorem encode_ascii {bytes : List UInt8} {c : Char} (h : c ∈ encode bytes) : c.toNat < 128 := by
  induction bytes with
  | nil => cases h
  | cons byte bytes ih =>
    have hbyte : byte.toNat < 256 := byte.toNat_lt
    simp only [encode, List.mem_cons] at h
    rcases h with h | h | h
    · rw [h]
      exact digitChar_ascii (by omega)
    · rw [h]
      exact digitChar_ascii (by omega)
    · exact ih h

/-- **Round trip**: the digits of some bytes are read as these bytes. -/
theorem decode_encode (bytes : List UInt8) : decode (encode bytes).utf8 = some bytes := by
  induction bytes with
  | nil => rfl
  | cons byte bytes ih =>
    have hbyte : byte.toNat < 256 := byte.toNat_lt
    have hhigh : byte.toNat / 16 < 16 := by omega
    have hlow : byte.toNat % 16 < 16 := by omega
    have hsum : 16 * (byte.toNat / 16) + byte.toNat % 16 = byte.toNat := by omega
    simp only [encode, Text.utf8_cons, Text.encode_ascii (digitChar_ascii hhigh),
      Text.encode_ascii (digitChar_ascii hlow), List.cons_append, List.nil_append, decode,
      nibble_digitChar hhigh, nibble_digitChar hlow, ih, hsum, UInt8.ofNat_toNat,
      Option.bind_eq_bind, Option.bind_some]

end Hex
