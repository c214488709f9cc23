import Mathlib.Data.List.Basic
import RemoteDeck.Lib.Text

/-! # UTF-8

    The bytes of a text, and the text of bytes that are well formed.  ASCII
    characters are bytes of their own: at the end of well-formed bytes, such a
    byte is a character.
-/

namespace Text

/-- The bytes of a text. -/
def utf8 (t : Text) : List UInt8 := t.flatMap String.utf8EncodeChar

@[simp] theorem utf8_nil : utf8 [] = [] := rfl

@[simp] theorem utf8_cons (c : Char) (t : Text) :
    utf8 (c :: t) = String.utf8EncodeChar c ++ utf8 t := by
  simp [utf8]

@[simp] theorem utf8_append (a b : Text) : utf8 (a ++ b) = utf8 a ++ utf8 b := by
  simp [utf8]

theorem length_utf8 (t : Text) : (utf8 t).length = t.len := by
  induction t with
  | nil => rfl
  | cons c t ih => simp [ih]

/-- `String::from_utf8`: the text of some bytes, if they are well formed. -/
def from_utf8 (bytes : List UInt8) : Option Text :=
  (String.fromUTF8? bytes.toByteArray).map String.toList

/-- Bytes are well formed when they are those of a text. -/
theorem from_utf8_eq_some {bytes : List UInt8} {t : Text} :
    from_utf8 bytes = some t ↔ utf8 t = bytes := by
  have hencode : ∀ t : Text, t.utf8Encode = (utf8 t).toByteArray := fun _ => rfl
  unfold from_utf8 String.fromUTF8?
  constructor
  · intro h
    split at h
    · rename_i hvalid
      simp only [Option.map_some, Option.some.injEq] at h
      have hbytes : (String.fromUTF8 bytes.toByteArray hvalid).toByteArray = bytes.toByteArray := rfl
      rw [← String.ofList_toList (s := String.fromUTF8 _ hvalid), h, String.toByteArray_ofList,
        hencode] at hbytes
      exact List.toByteArray_inj.mp hbytes
    · simp at h
  · rintro rfl
    have hvalid : (utf8 t).toByteArray.IsValidUTF8 := ⟨t, rfl⟩
    rw [dif_pos hvalid, Option.map_some, Option.some.injEq]
    have hsame : String.fromUTF8 (utf8 t).toByteArray hvalid = String.ofList t := by
      rw [← String.toByteArray_inj, String.toByteArray_ofList]
      rfl
    rw [hsame, String.toList_ofList]

@[simp] theorem from_utf8_utf8 (t : Text) : from_utf8 (utf8 t) = some t :=
  from_utf8_eq_some.mpr rfl

/-! ### ASCII characters -/

theorem encode_ascii {c : Char} (h : c.toNat < 128) :
    String.utf8EncodeChar c = [UInt8.ofNat c.toNat] := by
  have hval : c.val.toNat ≤ 0x7f := by
    show c.toNat ≤ 127
    omega
  unfold String.utf8EncodeChar
  exact if_pos hval

/-- The last byte of a character that is no ASCII character is a continuation
    byte. -/
theorem encode_last {c : Char} {byte : UInt8} (hbyte : byte.toNat < 128)
    (h : (String.utf8EncodeChar c).getLast? = some byte) :
    String.utf8EncodeChar c = [byte] := by
  have hcontinuation : UInt8.ofNat (c.val.toNat % 0x40 + 0x80) ≠ byte := by
    rintro rfl
    rw [UInt8.toNat_ofNat'] at hbyte
    omega
  unfold String.utf8EncodeChar at h ⊢
  dsimp only at h ⊢
  by_cases hascii : c.val.toNat ≤ 0x7f
  · rw [if_pos hascii] at h ⊢
    simpa using h
  · -- with more than one byte, the last one is a continuation byte
    rw [if_neg hascii] at h
    split at h
    · exact absurd (by simpa using h) hcontinuation
    · split at h <;> exact absurd (by simpa using h) hcontinuation

/-- The bytes of a character that is no ASCII character are none of ASCII. -/
theorem ascii_of_mem_encode {c : Char} {byte : UInt8} (hbyte : byte.toNat < 128)
    (h : byte ∈ String.utf8EncodeChar c) : c.toNat = byte.toNat := by
  have hlarge : ∀ n : Nat, 0x80 ≤ n → n < 0x100 → UInt8.ofNat n ≠ byte := by
    intro n hlow hhigh hsame
    rw [← hsame, UInt8.toNat_ofNat'] at hbyte
    omega
  unfold String.utf8EncodeChar at h
  dsimp only at h
  split at h
  · next hascii =>
    rw [List.mem_singleton.mp h, UInt8.toNat_ofNat']
    show c.val.toNat = c.val.toNat % 256
    omega
  · exfalso
    have hbound : c.val.toNat < 0x110000 := by
      rcases c.valid with hlow | hhigh
      · exact hlow.trans (by decide)
      · exact hhigh.2
    split at h
    · simp only [List.mem_cons, List.not_mem_nil, or_false] at h
      rcases h with h | h <;> exact hlarge _ (by omega) (by omega) h.symm
    · split at h
      · simp only [List.mem_cons, List.not_mem_nil, or_false] at h
        rcases h with h | h | h <;> exact hlarge _ (by omega) (by omega) h.symm
      · simp only [List.mem_cons, List.not_mem_nil, or_false] at h
        rcases h with h | h | h | h <;> exact hlarge _ (by omega) (by omega) h.symm

/-- An ASCII character that is a byte of a text is a character of it. -/
theorem mem_of_mem_utf8 {t : Text} {c : Char} (hc : c.toNat < 128) (h : UInt8.ofNat c.toNat ∈ utf8 t) :
    c ∈ t := by
  have hbyte : (UInt8.ofNat c.toNat).toNat = c.toNat := by
    rw [UInt8.toNat_ofNat']
    omega
  obtain ⟨d, hd, hmem⟩ := List.mem_flatMap.mp h
  have hsame := ascii_of_mem_encode (by omega) hmem
  rw [hbyte, Char.toNat_inj] at hsame
  rwa [← hsame]

/-- An ASCII byte behind well-formed bytes is a character. -/
theorem from_utf8_ascii (bytes : List UInt8) {c : Char} (hc : c.toNat < 128) :
    from_utf8 (bytes ++ [UInt8.ofNat c.toNat]) = (from_utf8 bytes).map (· ++ [c]) := by
  have hbyte : (UInt8.ofNat c.toNat).toNat = c.toNat := by
    rw [UInt8.toNat_ofNat']
    omega
  cases hfront : from_utf8 bytes with
  | some t =>
    rw [Option.map_some, from_utf8_eq_some, utf8_append, from_utf8_eq_some.mp hfront, utf8_cons,
      encode_ascii hc, utf8_nil, List.append_nil]
  | none =>
    rw [Option.map_none, ← Option.not_isSome_iff_eq_none]
    intro hsome
    obtain ⟨t, ht⟩ := Option.isSome_iff_exists.mp hsome
    have hbytes := from_utf8_eq_some.mp ht
    -- the text ends in this character, and what is in front of it is well formed
    rcases List.eq_nil_or_concat' t with rfl | ⟨front, last, rfl⟩
    · simp at hbytes
    · have hlast : (String.utf8EncodeChar last).getLast? = some (UInt8.ofNat c.toNat) := by
        have hends := congrArg List.getLast? hbytes
        rw [utf8_append, utf8_cons, utf8_nil, List.append_nil, List.getLast?_concat,
          List.getLast?_append_of_ne_nil _ String.utf8EncodeChar_ne_nil] at hends
        exact hends
      have hchar := encode_last (by omega) hlast
      rw [utf8_append, utf8_cons, utf8_nil, List.append_nil, hchar] at hbytes
      have hwell := from_utf8_eq_some.mpr (List.append_cancel_right hbytes)
      rw [hfront] at hwell
      simp at hwell

end Text
