import Mathlib
import RemoteDeck.Lib.Text

/-! # JSON

    The values of JSON, and the text that Python's `json.dumps` writes for
    them without blanks and with `ensure_ascii` off.  A number is an integer
    of any size or a double, and a double may be infinite or no number: then
    what is written is not JSON.

    This file defines:
    - `Json`, and how `serde_json` looks into it
    - `dumps`, where the text of a finite double is a parameter
    - `Finite`: no double in a value is infinite or no number

    The main result is `len_dumps_object`, the length of an object, with
    `len_dumps_array` and `len_dumps_string` for what is in it.
-/

/-! ### Doubles -/

namespace Float

theorem lt_iff_compare (x y : Float) :
    x < y ↔ x.toModel.unpack.compare y.toModel.unpack = some .lt := by
  show decide (x.toModel.unpack.lt y.toModel.unpack = true) = true ↔ _
  unfold Model.UnpackedFloat.lt
  rw [decide_eq_true_iff, beq_iff_eq]

theorem le_iff_compare (x y : Float) :
    x ≤ y ↔ ∃ order, x.toModel.unpack.compare y.toModel.unpack = some order ∧ order.isLE = true := by
  show decide (x.toModel.unpack.le y.toModel.unpack = true) = true ↔ _
  unfold Model.UnpackedFloat.le
  rw [decide_eq_true_iff, Option.any_eq_true]

theorem le_of_lt {x y : Float} (h : x < y) : x ≤ y :=
  (le_iff_compare x y).mpr ⟨.lt, (lt_iff_compare x y).mp h, rfl⟩

/-- A double between two finite ones is finite. -/
theorem isFinite_of_between {x low high : Float} (hlow : low ≤ x) (hhigh : x ≤ high)
    (hfinite_low : low.isFinite = true) (hfinite_high : high.isFinite = true) : x.isFinite = true := by
  obtain ⟨below, hbelow, hle_below⟩ := (le_iff_compare low x).mp hlow
  obtain ⟨above, habove, hle_above⟩ := (le_iff_compare x high).mp hhigh
  show x.toModel.unpack.isFinite = true
  change low.toModel.unpack.isFinite = true at hfinite_low
  change high.toModel.unpack.isFinite = true at hfinite_high
  -- an infinite double is above or below every finite one, and the others compare with none
  cases hx : x.toModel.unpack with
  | zero sign => rfl
  | finite sign mantissa exponent hpos => rfl
  | notANumber =>
    rw [hx] at habove
    cases habove
  | infinity sign =>
    rw [hx] at hbelow habove
    cases sign with
    | positive =>
      cases hhigh : high.toModel.unpack <;> rw [hhigh] at habove hfinite_high
      all_goals simp_all [Model.UnpackedFloat.compare, Model.UnpackedFloat.isFinite]
      all_goals
        subst habove
        cases hle_above
    | negative =>
      cases hlow : low.toModel.unpack <;> rw [hlow] at hbelow hfinite_low
      all_goals simp_all [Model.UnpackedFloat.compare, Model.UnpackedFloat.isFinite]
      all_goals
        subst hbelow
        cases hle_below

end Float

/-! ### Values -/

inductive Number where
  | int (value : Int)
  | float (value : Float)
  deriving DecidableEq

inductive Json where
  | null
  | bool (value : Bool)
  | number (value : Number)
  | string (value : Text)
  | array (items : List Json)
  | object (members : List (Text × Json))

namespace Json

/-- `Value::get` of a member. -/
def get (value : Json) (key : Text) : Option Json :=
  match value with
  | .object members => (members.find? fun member => member.1 = key).map Prod.snd
  | _ => none

/-- The value at the end of a path of members. -/
def at_path (value : Json) : List Text → Option Json
  | [] => some value
  | key :: path => (value.get key).bind fun member => member.at_path path

def as_str : Json → Option Text
  | .string value => some value
  | _ => none

def as_array : Json → Option (List Json)
  | .array items => some items
  | _ => none

/-- `Value::as_u64`: the integers that fit. -/
def as_u64 : Json → Option UInt64
  | .number (.int value) =>
      if 0 ≤ value ∧ value < 18446744073709551616 then some (UInt64.ofNat value.toNat) else none
  | _ => none

/-- `Value::as_f64`. -/
def as_f64 : Json → Option Float
  | .number (.int value) => some (Float.ofInt value)
  | .number (.float value) => some value
  | _ => none

def is_null : Json → Bool
  | .null => true
  | _ => false

/-! ### Writing -/

/-- Escaped are the quote, the backslash and the control characters of ASCII. -/
def escape (c : Char) : Text :=
  if c = '"' then "\\\"".toList
  else if c = '\\' then "\\\\".toList
  else if c = '\n' then "\\n".toList
  else if c = '\r' then "\\r".toList
  else if c = '\t' then "\\t".toList
  else if c.toNat = 0x08 then "\\b".toList
  else if c.toNat = 0x0c then "\\f".toList
  else if c.toNat < 0x20 then
    "\\u00".toList ++ [(c.toNat / 16).digitChar, (c.toNat % 16).digitChar]
  else [c]

def dumps_string (value : Text) : Text := '"' :: value.flatMap escape ++ ['"']

def dumps_int : Int → Text
  | .ofNat n => Nat.toDigits 10 n
  | .negSucc n => '-' :: Nat.toDigits 10 (n + 1)

/-- `float.__repr__` is for the finite ones. -/
def dumps_number (repr : Float → Text) : Number → Text
  | .int value => dumps_int value
  | .float value =>
      if value.isNaN then "NaN".toList
      else if value.isFinite then repr value
      else if value < 0.0 then "-Infinity".toList else "Infinity".toList

mutual

/-- `json.dumps` with the separators `,` and `:`. -/
def dumps (repr : Float → Text) : Json → Text
  | .null => "null".toList
  | .bool value => if value then "true".toList else "false".toList
  | .number value => dumps_number repr value
  | .string value => dumps_string value
  | .array items => '[' :: Text.join ',' (dumps_items repr items) ++ [']']
  | .object members => '\x7b' :: Text.join ',' (dumps_members repr members) ++ ['\x7d']

def dumps_items (repr : Float → Text) : List Json → List Text
  | [] => []
  | item :: items => dumps repr item :: dumps_items repr items

def dumps_members (repr : Float → Text) : List (Text × Json) → List Text
  | [] => []
  | (key, value) :: members =>
      (dumps_string key ++ ':' :: dumps repr value) :: dumps_members repr members

end

mutual

/-- No number is infinite or none: the text is JSON. -/
def Finite : Json → Prop
  | .number (.float value) => value.isFinite = true
  | .array items => FiniteItems items
  | .object members => FiniteMembers members
  | _ => True

def FiniteItems : List Json → Prop
  | [] => True
  | item :: items => item.Finite ∧ FiniteItems items

def FiniteMembers : List (Text × Json) → Prop
  | [] => True
  | (_, value) :: members => value.Finite ∧ FiniteMembers members

end

theorem finiteItems_iff (items : List Json) : FiniteItems items ↔ ∀ item ∈ items, item.Finite := by
  induction items with
  | nil => simp [FiniteItems]
  | cons item items ih => simp [FiniteItems, ih]

theorem finiteMembers_iff (members : List (Text × Json)) :
    FiniteMembers members ↔ ∀ member ∈ members, member.2.Finite := by
  induction members with
  | nil => simp [FiniteMembers]
  | cons member members ih => simp [FiniteMembers, ih]

theorem finite_array_iff (items : List Json) : (array items).Finite ↔ ∀ item ∈ items, item.Finite := by
  rw [Finite, finiteItems_iff]

theorem finite_object_iff (members : List (Text × Json)) :
    (object members).Finite ↔ ∀ member ∈ members, member.2.Finite := by
  rw [Finite, finiteMembers_iff]

@[simp] theorem finite_null : null.Finite := trivial

@[simp] theorem finite_string (value : Text) : (string value).Finite := trivial

@[simp] theorem finite_int (value : Int) : (number (.int value)).Finite := trivial

@[simp] theorem finite_float (value : Float) : (number (.float value)).Finite ↔ value.isFinite = true :=
  Iff.rfl

/-! ### Lengths -/

theorem len_join (separator : Char) (parts : List Text) :
    (Text.join separator parts).len =
      (parts.map Text.len).sum + separator.utf8Size * (parts.length - 1) := by
  unfold Text.join
  induction parts with
  | nil => rfl
  | cons part parts ih =>
    cases parts with
    | nil => simp [List.intercalate]
    | cons next rest =>
      have hstep : [separator].intercalate (part :: next :: rest) =
          part ++ separator :: [separator].intercalate (next :: rest) := by
        simp [List.intercalate]
      rw [hstep, Text.len_append, Text.len_cons, ih]
      simp only [List.map_cons, List.sum_cons, List.length_cons, Nat.add_sub_cancel]
      rw [Nat.mul_add separator.utf8Size rest.length 1]
      omega

theorem dumps_items_eq (repr : Float → Text) (items : List Json) :
    dumps_items repr items = items.map (dumps repr) := by
  induction items with
  | nil => rfl
  | cons item items ih => rw [dumps_items, ih, List.map_cons]

/-- The text of a member. -/
def dumps_member (repr : Float → Text) (member : Text × Json) : Text :=
  dumps_string member.1 ++ ':' :: dumps repr member.2

theorem dumps_members_eq (repr : Float → Text) (members : List (Text × Json)) :
    dumps_members repr members = members.map (dumps_member repr) := by
  induction members with
  | nil => rfl
  | cons member members ih => rw [dumps_members, ih, List.map_cons, dumps_member]

/-- Brackets, the items, and a comma between two of them. -/
theorem len_dumps_array (repr : Float → Text) (items : List Json) :
    (dumps repr (.array items)).len =
      2 + (items.map fun item => (dumps repr item).len).sum + (items.length - 1) := by
  have hbrackets : ∀ inside : Text, Text.len ('[' :: inside ++ [']']) = 2 + inside.len := by
    intro inside
    have hlen := Text.len_append inside [']']
    have hlast : Text.len [']'] = 1 := rfl
    show 1 + Text.len (inside ++ [']']) = _
    omega
  have hcomma : ','.utf8Size = 1 := rfl
  rw [dumps, hbrackets, len_join, dumps_items_eq, List.map_map, List.length_map, hcomma]
  simp only [Function.comp_def]
  omega

/-- Braces, the members, and a comma between two of them. -/
theorem len_dumps_object (repr : Float → Text) (members : List (Text × Json)) :
    (dumps repr (.object members)).len =
      2 + (members.map fun member => (dumps_member repr member).len).sum + (members.length - 1) := by
  have hbraces : ∀ inside : Text, Text.len ('\x7b' :: inside ++ ['\x7d']) = 2 + inside.len := by
    intro inside
    have hlen := Text.len_append inside ['\x7d']
    have hlast : Text.len ['\x7d'] = 1 := rfl
    show 1 + Text.len (inside ++ ['\x7d']) = _
    omega
  have hcomma : ','.utf8Size = 1 := rfl
  rw [dumps, hbraces, len_join, dumps_members_eq, List.map_map, List.length_map, hcomma]
  simp only [Function.comp_def]
  omega

theorem len_dumps_member (repr : Float → Text) (member : Text × Json) :
    (dumps_member repr member).len =
      (dumps_string member.1).len + 1 + (dumps repr member.2).len := by
  unfold dumps_member
  have hcolon : ':'.utf8Size = 1 := rfl
  rw [Text.len_append, Text.len_cons, hcolon]
  omega

/-- No character is written in fewer bytes than it has. -/
theorem utf8Size_le_escape (c : Char) : c.utf8Size ≤ (escape c).len := by
  by_cases hascii : c.toNat < 128
  · have hone : c.utf8Size = 1 := by
      have hlen := Text.len_of_ascii (t := [c]) (by simpa using hascii)
      simpa using hlen
    have hne : escape c ≠ [] := by
      unfold escape
      split_ifs <;> simp
    obtain ⟨d, rest, hescape⟩ := List.exists_cons_of_ne_nil hne
    have hpos := d.utf8Size_pos
    rw [hone, hescape, Text.len_cons]
    omega
  · have hsame : escape c = [c] := by
      have hne : ∀ d : Char, d.toNat < 128 → c ≠ d := by
        intro d hd hsame
        rw [hsame] at hascii
        exact hascii hd
      unfold escape
      rw [if_neg (hne _ (by decide)), if_neg (hne _ (by decide)), if_neg (hne _ (by decide)),
        if_neg (hne _ (by decide)), if_neg (hne _ (by decide)), if_neg (by omega), if_neg (by omega),
        if_neg (by omega)]
    simp [hsame]

theorem len_le_dumps_string (value : Text) : value.len ≤ (dumps_string value).len := by
  have hinside : value.len ≤ Text.len (value.flatMap escape) := by
    induction value with
    | nil => simp
    | cons c value ih =>
      have hc := utf8Size_le_escape c
      simp only [Text.len_cons, List.flatMap_cons, Text.len_append]
      omega
  unfold dumps_string
  simp only [List.cons_append, Text.len_cons, Text.len_append]
  omega

/-! ### Lines -/

theorem mem_join {separator c : Char} {parts : List Text} (h : c ∈ Text.join separator parts) :
    c = separator ∨ ∃ part ∈ parts, c ∈ part := by
  unfold Text.join at h
  induction parts with
  | nil => simp [List.intercalate] at h
  | cons part parts ih =>
    cases parts with
    | nil => exact .inr ⟨part, List.mem_singleton.mpr rfl, by simpa [List.intercalate] using h⟩
    | cons next rest =>
      have hstep : [separator].intercalate (part :: next :: rest) =
          part ++ separator :: [separator].intercalate (next :: rest) := by
        simp [List.intercalate]
      rw [hstep, List.mem_append, List.mem_cons] at h
      rcases h with h | h | h
      · exact .inr ⟨part, List.mem_cons_self, h⟩
      · exact .inl h
      · apply (ih h).imp id
        intro ⟨other, hother, hc⟩
        exact ⟨other, List.mem_cons_of_mem _ hother, hc⟩

theorem digitChar_ne_newline {n : Nat} (h : n < 16) : n.digitChar ≠ '\n' := by
  revert n
  decide

theorem escape_newline (c : Char) : '\n' ∉ escape c := by
  unfold escape
  split_ifs with hquote hbackslash hnewline hreturn htab hback hfeed hcontrol
  iterate 7 decide
  · simp only [List.mem_append, List.mem_cons, List.not_mem_nil, or_false, not_or]
    have hhigh : c.toNat / 16 < 16 := by omega
    have hlow : c.toNat % 16 < 16 := by omega
    exact ⟨by decide, (digitChar_ne_newline hhigh).symm, (digitChar_ne_newline hlow).symm⟩
  · rw [List.mem_singleton]
    exact fun hc => hnewline hc.symm

theorem dumps_string_newline (value : Text) : '\n' ∉ dumps_string value := by
  intro h
  unfold dumps_string at h
  rw [List.mem_append, List.mem_cons, List.mem_flatMap, List.mem_singleton] at h
  rcases h with (h | ⟨c, -, hc⟩) | h
  · cases h
  · exact escape_newline c hc
  · cases h

theorem dumps_int_newline (value : Int) : '\n' ∉ dumps_int value := by
  have hdigits : ∀ n : Nat, '\n' ∉ Nat.toDigits 10 n := by
    intro n hmem
    have hdigit : '\n'.isDigit = true := Nat.isDigit_of_mem_toDigits (by decide) (by decide) hmem
    cases hdigit
  cases value with
  | ofNat n => exact hdigits n
  | negSucc n =>
    intro hmem
    rcases List.mem_cons.mp hmem with hminus | hmem
    · cases hminus
    · exact hdigits (n + 1) hmem

theorem dumps_number_newline {repr : Float → Text} (hrepr : ∀ value, '\n' ∉ repr value)
    (value : Number) : '\n' ∉ dumps_number repr value := by
  cases value with
  | int value => exact dumps_int_newline value
  | float value =>
    unfold dumps_number
    dsimp only
    split_ifs
    · decide
    · exact hrepr value
    · decide
    · decide

mutual

/-- What is written is one line. -/
theorem dumps_newline {repr : Float → Text} (hrepr : ∀ value, '\n' ∉ repr value) :
    (value : Json) → '\n' ∉ dumps repr value
  | .null => by
    rw [dumps]
    decide
  | .bool value => by
    rw [dumps]
    cases value <;> decide
  | .number value => by
    rw [dumps]
    exact dumps_number_newline hrepr value
  | .string value => by
    rw [dumps]
    exact dumps_string_newline value
  | .array items => by
    intro h
    rw [dumps, List.mem_append, List.mem_cons, List.mem_singleton] at h
    rcases h with (h | h) | h
    · cases h
    · rcases mem_join h with h | ⟨part, hpart, h⟩
      · cases h
      · exact dumps_items_newline hrepr items part hpart h
    · cases h
  | .object members => by
    intro h
    rw [dumps, List.mem_append, List.mem_cons, List.mem_singleton] at h
    rcases h with (h | h) | h
    · cases h
    · rcases mem_join h with h | ⟨part, hpart, h⟩
      · cases h
      · exact dumps_members_newline hrepr members part hpart h
    · cases h

theorem dumps_items_newline {repr : Float → Text} (hrepr : ∀ value, '\n' ∉ repr value) :
    (items : List Json) → ∀ part ∈ dumps_items repr items, '\n' ∉ part
  | [] => fun _ hpart => by cases hpart
  | item :: items => by
    intro part hpart
    rw [dumps_items, List.mem_cons] at hpart
    rcases hpart with rfl | hpart
    · exact dumps_newline hrepr item
    · exact dumps_items_newline hrepr items part hpart

theorem dumps_members_newline {repr : Float → Text} (hrepr : ∀ value, '\n' ∉ repr value) :
    (members : List (Text × Json)) → ∀ part ∈ dumps_members repr members, '\n' ∉ part
  | [] => fun _ hpart => by cases hpart
  | (key, value) :: members => by
    intro part hpart
    rw [dumps_members, List.mem_cons] at hpart
    rcases hpart with rfl | hpart
    · intro h
      rw [List.mem_append, List.mem_cons] at h
      rcases h with h | h | h
      · exact dumps_string_newline key h
      · cases h
      · exact dumps_newline hrepr value h
    · exact dumps_members_newline hrepr members part hpart

end

end Json
