import RemoteDeck.Lib.Json
import RemoteDeck.Lib.Replace

/-! # JSON on several lines

    What `serde_json::to_vec_pretty` writes: two blanks for each level, and a
    line for each item or member.

    This file defines:
    - `Within`: the values in a value, at any depth, and `Says`: its texts,
      which are the keys and the strings in it
    - `pretty`

    The main results are `says_inside`, by which every text is written out, and
    `infix_pretty`, by which nothing else is.
-/

namespace Json

/-- **Induction over values**, with the items and the members of a value. -/
theorem induct {P : Json → Prop} (null : P .null) (bool : ∀ value, P (.bool value))
    (number : ∀ value, P (.number value)) (string : ∀ value, P (.string value))
    (array : ∀ items, (∀ item ∈ items, P item) → P (.array items))
    (object : ∀ members, (∀ member ∈ members, P member.2) → P (.object members)) (value : Json) :
    P value := by
  refine Json.rec (motive_1 := P) (motive_2 := fun items => ∀ item ∈ items, P item)
    (motive_3 := fun members => ∀ member ∈ members, P member.2) (motive_4 := fun member => P member.2)
    null bool number string array object ?_ ?_ ?_ ?_ ?_ value
  · exact List.forall_mem_nil _
  · intro item items hitem hitems
    exact List.forall_mem_cons.mpr ⟨hitem, hitems⟩
  · exact List.forall_mem_nil _
  · intro member members hmember hmembers
    exact List.forall_mem_cons.mpr ⟨hmember, hmembers⟩
  · intro key value hvalue
    exact hvalue

/-! ### What is in a value -/

/-- The first value is in the second, at any depth. -/
inductive Within (inner : Json) : Json → Prop where
  | refl : Within inner inner
  | item {item : Json} {items : List Json} : item ∈ items → Within inner item →
      Within inner (.array items)
  | member {key : Text} {value : Json} {members : List (Text × Json)} : (key, value) ∈ members →
      Within inner value → Within inner (.object members)

/-- The text is a string in the value. -/
def HasString (value : Json) (text : Text) : Prop := Within (.string text) value

/-- The member is one of an object in the value. -/
def HasMember (value : Json) (key : Text) (member : Json) : Prop :=
  ∃ members, Within (.object members) value ∧ (key, member) ∈ members

/-- The text is a string or a key in the value. -/
def Says (value : Json) (text : Text) : Prop := value.HasString text ∨ ∃ member, value.HasMember text member

variable {text key : Text} {member : Json} {items : List Json} {members : List (Text × Json)}

/-- The values without others in them. -/
def is_leaf : Json → Bool
  | .null | .bool _ | .number _ => true
  | _ => false

theorem has_string_leaf {value : Json} (hleaf : value.is_leaf = true) : ¬ value.HasString text := by
  intro h
  cases h <;> cases hleaf

theorem has_string_string {value : Text} : (string value).HasString text ↔ text = value := by
  constructor
  · intro h
    cases h
    rfl
  · rintro rfl
    exact .refl

theorem has_string_array : (array items).HasString text ↔ ∃ item ∈ items, item.HasString text := by
  constructor
  · intro h
    cases h with
    | item hitem h => exact ⟨_, hitem, h⟩
  · intro ⟨item, hitem, h⟩
    exact .item hitem h

theorem has_string_object : (object members).HasString text ↔ ∃ member ∈ members, member.2.HasString text := by
  constructor
  · intro h
    cases h with
    | member hmember h => exact ⟨_, hmember, h⟩
  · intro ⟨member, hmember, h⟩
    exact .member hmember h

theorem has_member_leaf {value : Json} (hleaf : value.is_leaf = true) : ¬ value.HasMember key member := by
  rintro ⟨members, h, -⟩
  cases h <;> cases hleaf

theorem has_member_string {value : Text} : ¬ (string value).HasMember key member := by
  rintro ⟨members, h, -⟩
  cases h

theorem has_member_array : (array items).HasMember key member ↔ ∃ item ∈ items, item.HasMember key member := by
  constructor
  · rintro ⟨members, h, hmember⟩
    cases h with
    | item hitem h => exact ⟨_, hitem, members, h, hmember⟩
  · rintro ⟨item, hitem, members, h, hmember⟩
    exact ⟨members, .item hitem h, hmember⟩

theorem has_member_object : (object members).HasMember key member ↔
    (key, member) ∈ members ∨ ∃ outer ∈ members, outer.2.HasMember key member := by
  constructor
  · rintro ⟨inner, h, hmember⟩
    cases h with
    | refl => exact .inl hmember
    | member houter h => exact .inr ⟨_, houter, inner, h, hmember⟩
  · rintro (h | ⟨outer, houter, inner, h, hmember⟩)
    · exact ⟨members, .refl, h⟩
    · exact ⟨inner, .member houter h, hmember⟩

theorem not_says_leaf {value : Json} (hleaf : value.is_leaf = true) : ¬ value.Says text := by
  rintro (h | ⟨member, h⟩)
  · exact has_string_leaf hleaf h
  · exact has_member_leaf hleaf h

theorem says_string {value : Text} : (string value).Says text ↔ text = value := by
  constructor
  · rintro (h | ⟨member, h⟩)
    · exact has_string_string.mp h
    · exact absurd h has_member_string
  · intro h
    exact .inl (has_string_string.mpr h)

theorem says_array : (array items).Says text ↔ ∃ item ∈ items, item.Says text := by
  constructor
  · rintro (h | ⟨member, h⟩)
    · obtain ⟨item, hitem, h⟩ := has_string_array.mp h
      exact ⟨item, hitem, .inl h⟩
    · obtain ⟨item, hitem, h⟩ := has_member_array.mp h
      exact ⟨item, hitem, .inr ⟨member, h⟩⟩
  · rintro ⟨item, hitem, h | ⟨member, h⟩⟩
    · exact .inl (has_string_array.mpr ⟨item, hitem, h⟩)
    · exact .inr ⟨member, has_member_array.mpr ⟨item, hitem, h⟩⟩

theorem says_object : (object members).Says text ↔
    ∃ member ∈ members, text = member.1 ∨ member.2.Says text := by
  constructor
  · rintro (h | ⟨value, h⟩)
    · obtain ⟨member, hmember, h⟩ := has_string_object.mp h
      exact ⟨member, hmember, .inr (.inl h)⟩
    · rcases has_member_object.mp h with hmember | ⟨outer, houter, h⟩
      · exact ⟨_, hmember, .inl rfl⟩
      · exact ⟨outer, houter, .inr (.inr ⟨value, h⟩)⟩
  · rintro ⟨⟨key, value⟩, hmember, rfl | h | ⟨inner, h⟩⟩
    · exact .inr ⟨value, has_member_object.mpr (.inl hmember)⟩
    · exact .inl (has_string_object.mpr ⟨_, hmember, h⟩)
    · exact .inr ⟨inner, has_member_object.mpr (.inr ⟨_, hmember, h⟩)⟩

/-! ### Writing -/

def new_line (indent : Nat) : Text := '\n' :: List.replicate (2 * indent) ' '

mutual

/-- `to_vec_pretty`, where the text of a double is a parameter. -/
def pretty (repr : Float → Text) (indent : Nat) : Json → Text
  | .null => "null".toList
  | .bool value => if value then "true".toList else "false".toList
  | .number value => dumps_number repr value
  | .string value => dumps_string value
  | .array [] => "[]".toList
  | .array (item :: items) =>
      '[' :: new_line (indent + 1) ++ pretty repr (indent + 1) item ++
        pretty_items repr (indent + 1) items ++ new_line indent ++ [']']
  | .object [] => "\x7b\x7d".toList
  | .object ((key, value) :: members) =>
      '\x7b' :: new_line (indent + 1) ++ dumps_string key ++ ": ".toList ++
        pretty repr (indent + 1) value ++ pretty_members repr (indent + 1) members ++
          new_line indent ++ ['\x7d']

def pretty_items (repr : Float → Text) (indent : Nat) : List Json → Text
  | [] => []
  | item :: items => ',' :: new_line indent ++ pretty repr indent item ++ pretty_items repr indent items

def pretty_members (repr : Float → Text) (indent : Nat) : List (Text × Json) → Text
  | [] => []
  | (key, value) :: members =>
      ',' :: new_line indent ++ dumps_string key ++ ": ".toList ++ pretty repr indent value ++
        pretty_members repr indent members

end

/-! ### Every text is written -/

variable {repr : Float → Text} {indent : Nat}

theorem pretty_items_inside {item : Json} (h : item ∈ items) :
    pretty repr indent item <:+: pretty_items repr indent items := by
  induction items with
  | nil => cases h
  | cons first items ih =>
    rw [pretty_items]
    rcases List.mem_cons.mp h with rfl | h
    · exact List.infix_append _ _ _
    · exact (ih h).trans (List.suffix_append _ _).isInfix

theorem pretty_members_inside {key : Text} {value : Json} (h : (key, value) ∈ members) :
    dumps_string key <:+: pretty_members repr indent members ∧
      pretty repr indent value <:+: pretty_members repr indent members := by
  induction members with
  | nil => cases h
  | cons first members ih =>
    obtain ⟨key', value'⟩ := first
    rw [pretty_members]
    rcases List.mem_cons.mp h with h | h
    · obtain ⟨rfl, rfl⟩ := Prod.mk.inj h
      refine ⟨⟨',' :: new_line indent, ": ".toList ++ pretty repr indent value ++
        pretty_members repr indent members, ?_⟩, ?_⟩
      · simp only [List.append_assoc, List.cons_append]
      · exact List.infix_append _ _ _
    · obtain ⟨hkey, hvalue⟩ := ih h
      exact ⟨hkey.trans (List.suffix_append _ _).isInfix, hvalue.trans (List.suffix_append _ _).isInfix⟩

theorem item_inside {item : Json} (h : item ∈ items) :
    pretty repr (indent + 1) item <:+: pretty repr indent (.array items) := by
  cases items with
  | nil => cases h
  | cons first items =>
    rw [pretty]
    rcases List.mem_cons.mp h with rfl | h
    · refine ⟨'[' :: new_line (indent + 1), pretty_items repr (indent + 1) items ++ new_line indent ++
        [']'], ?_⟩
      simp only [List.append_assoc, List.cons_append]
    · have hlater : pretty repr (indent + 1) item <:+: pretty_items repr (indent + 1) items :=
        pretty_items_inside h
      obtain ⟨a, b, hab⟩ := hlater
      refine ⟨'[' :: new_line (indent + 1) ++ pretty repr (indent + 1) first ++ a,
        b ++ new_line indent ++ [']'], ?_⟩
      simp only [← hab, List.append_assoc, List.cons_append]

theorem member_inside {key : Text} {value : Json} (h : (key, value) ∈ members) :
    dumps_string key <:+: pretty repr indent (.object members) ∧
      pretty repr (indent + 1) value <:+: pretty repr indent (.object members) := by
  cases members with
  | nil => cases h
  | cons first members =>
    obtain ⟨key', value'⟩ := first
    rw [pretty]
    rcases List.mem_cons.mp h with h | h
    · obtain ⟨rfl, rfl⟩ := Prod.mk.inj h
      constructor
      · refine ⟨'\x7b' :: new_line (indent + 1), ": ".toList ++ pretty repr (indent + 1) value ++
          pretty_members repr (indent + 1) members ++ new_line indent ++ ['\x7d'], ?_⟩
        simp only [List.append_assoc, List.cons_append]
      · refine ⟨'\x7b' :: new_line (indent + 1) ++ dumps_string key ++ ": ".toList,
          pretty_members repr (indent + 1) members ++ new_line indent ++ ['\x7d'], ?_⟩
        simp only [List.append_assoc, List.cons_append]
    · have hlater : pretty_members repr (indent + 1) members <:+:
          '\x7b' :: new_line (indent + 1) ++ dumps_string key' ++ ": ".toList ++
            pretty repr (indent + 1) value' ++ pretty_members repr (indent + 1) members ++
              new_line indent ++ ['\x7d'] := by
        refine ⟨'\x7b' :: new_line (indent + 1) ++ dumps_string key' ++ ": ".toList ++
          pretty repr (indent + 1) value', new_line indent ++ ['\x7d'], ?_⟩
        simp only [List.append_assoc, List.cons_append]
      obtain ⟨hkey, hvalue⟩ := pretty_members_inside h
      exact ⟨hkey.trans hlater, hvalue.trans hlater⟩

theorem escape_inside (text : Text) : text.flatMap escape <:+: dumps_string text :=
  ⟨['"'], ['"'], rfl⟩

/-- **Every text is written out.** -/
theorem says_inside {value : Json} (h : value.Says text) :
    text.flatMap escape <:+: pretty repr indent value := by
  induction value using induct generalizing indent with
  | null => exact absurd h (not_says_leaf rfl)
  | bool value => exact absurd h (not_says_leaf rfl)
  | number value => exact absurd h (not_says_leaf rfl)
  | string value =>
    obtain rfl := says_string.mp h
    rw [pretty]
    exact escape_inside text
  | array items ih =>
    obtain ⟨item, hitem, hsays⟩ := says_array.mp h
    exact (ih item hitem hsays).trans (item_inside hitem)
  | object members ih =>
    obtain ⟨⟨key, value⟩, hmember, rfl | hsays⟩ := says_object.mp h
    · exact (escape_inside text).trans (member_inside hmember).1
    · exact (ih _ hmember hsays).trans (member_inside hmember).2

/-! ### Nothing else is written -/

def SYMBOLS : Text := "\x7b\x7d[],:\n -+.eEnulltruefalseNaNInfinity".toList

/-- A character outside the texts. -/
def Plain (c : Char) : Prop := c.isDigit = true ∨ c ∈ SYMBOLS

instance : DecidablePred Plain := fun c => inferInstanceAs (Decidable (c.isDigit = true ∨ c ∈ SYMBOLS))

theorem plain_dumps_int (value : Int) : ∀ c ∈ dumps_int value, Plain c := by
  have hdigits : ∀ n : Nat, ∀ c ∈ Nat.toDigits 10 n, Plain c := by
    intro n c hc
    exact .inl (Nat.isDigit_of_mem_toDigits (by decide) (by decide) hc)
  cases value with
  | ofNat n => exact hdigits n
  | negSucc n => exact List.forall_mem_cons.mpr ⟨.inr (by decide), hdigits (n + 1)⟩

theorem plain_symbols {t : Text} (h : t.all (fun c => c ∈ SYMBOLS) = true) : ∀ c ∈ t, Plain c := by
  intro c hc
  exact .inr (of_decide_eq_true (List.all_eq_true.mp h c hc))

theorem plain_new_line (indent : Nat) : ∀ c ∈ new_line indent, Plain c := by
  intro c hc
  rcases List.mem_cons.mp hc with rfl | hc
  · exact .inr (by decide)
  · rw [List.eq_of_mem_replicate hc]
    exact .inr (by decide)

theorem plain_dumps_number (hrepr : ∀ value, ∀ c ∈ repr value, Plain c) (value : Number) :
    ∀ c ∈ dumps_number repr value, Plain c := by
  cases value with
  | int value => exact plain_dumps_int value
  | float value =>
    unfold dumps_number
    dsimp only
    split_ifs
    · exact plain_symbols (by decide)
    · exact hrepr value
    · exact plain_symbols (by decide)
    · exact plain_symbols (by decide)

open Replace

variable {body : Text → Prop}

theorem quoted_symbols {t : Text} (h : t.all (fun c => c ∈ SYMBOLS) = true) : Quoted '"' Plain body t :=
  .of_plain (plain_symbols h)

theorem quoted_line (indent : Nat) : Quoted '"' Plain body (new_line indent) :=
  .of_plain (plain_new_line indent)

theorem quoted_open {c : Char} (hc : c ∈ SYMBOLS) : Quoted '"' Plain body (c :: new_line indent) :=
  .plain (.inr hc) (quoted_line indent)

theorem quoted_string {text : Text} (h : body (text.flatMap escape)) :
    Quoted '"' Plain body (dumps_string text) := by
  show Quoted '"' Plain body ('"' :: (text.flatMap escape ++ ['"']))
  exact .body h .nil

theorem quoted_items (h : ∀ item ∈ items, Quoted '"' Plain body (pretty repr indent item)) :
    Quoted '"' Plain body (pretty_items repr indent items) := by
  induction items with
  | nil => exact .nil
  | cons item items ih =>
    obtain ⟨hitem, hitems⟩ := List.forall_mem_cons.mp h
    rw [pretty_items]
    exact ((quoted_open (by decide)).append hitem).append (ih hitems)

theorem quoted_members (h : ∀ member ∈ members, body (member.1.flatMap escape) ∧
    Quoted '"' Plain body (pretty repr indent member.2)) :
    Quoted '"' Plain body (pretty_members repr indent members) := by
  induction members with
  | nil => exact .nil
  | cons member members ih =>
    obtain ⟨⟨hkey, hvalue⟩, hmembers⟩ := List.forall_mem_cons.mp h
    rw [pretty_members]
    exact ((((quoted_open (by decide)).append (quoted_string hkey)).append
      (quoted_symbols (by decide))).append hvalue).append (ih hmembers)

/-- What is written is plain but for the texts. -/
theorem quoted_pretty (hrepr : ∀ value, ∀ c ∈ repr value, Plain c) {value : Json}
    (hbody : ∀ text, value.Says text → body (text.flatMap escape)) :
    Quoted '"' Plain body (pretty repr indent value) := by
  induction value using induct generalizing indent with
  | null =>
    rw [pretty]
    exact quoted_symbols (by decide)
  | bool value =>
    rw [pretty]
    cases value with
    | true => exact quoted_symbols (by decide)
    | false => exact quoted_symbols (by decide)
  | number value =>
    rw [pretty]
    exact .of_plain (plain_dumps_number hrepr value)
  | string value =>
    rw [pretty]
    exact quoted_string (hbody value (says_string.mpr rfl))
  | array items ih =>
    have hitems : ∀ item ∈ items, Quoted '"' Plain body (pretty repr (indent + 1) item) := by
      intro item hitem
      exact ih item hitem fun text htext => hbody text (says_array.mpr ⟨item, hitem, htext⟩)
    cases items with
    | nil =>
      rw [pretty]
      exact quoted_symbols (by decide)
    | cons item items =>
      obtain ⟨hitem, hrest⟩ := List.forall_mem_cons.mp hitems
      rw [pretty]
      exact ((((quoted_open (by decide)).append hitem).append (quoted_items hrest)).append
        (quoted_line indent)).append (quoted_symbols (by decide))
  | object members ih =>
    have hmembers : ∀ member ∈ members, body (member.1.flatMap escape) ∧
        Quoted '"' Plain body (pretty repr (indent + 1) member.2) := by
      intro member hmember
      refine ⟨hbody _ (says_object.mpr ⟨member, hmember, .inl rfl⟩), ih member hmember ?_⟩
      intro text htext
      exact hbody text (says_object.mpr ⟨member, hmember, .inr htext⟩)
    cases members with
    | nil =>
      rw [pretty]
      exact quoted_symbols (by decide)
    | cons member members =>
      obtain ⟨⟨hkey, hvalue⟩, hrest⟩ := List.forall_mem_cons.mp hmembers
      rw [pretty]
      exact ((((((quoted_open (by decide)).append (quoted_string hkey)).append
        (quoted_symbols (by decide))).append hvalue).append (quoted_members hrest)).append
          (quoted_line indent)).append (quoted_symbols (by decide))

/-- **Nothing else is written**: what is not plain and has no quote in it
    stands in a text, also where the characters are changed one by one. -/
theorem infix_pretty (hrepr : ∀ value, ∀ c ∈ repr value, Plain c) {value : Json} {f : Char → Char}
    (hf : f '"' = '"') {w : Text} (hquote : '"' ∉ w) (hplain : ∃ c ∈ w, ∀ d, Plain d → f d ≠ c)
    (hw : w <:+: (pretty repr indent value).map f) :
    ∃ text, value.Says text ∧ w <:+: (text.flatMap escape).map f := by
  have hquoted : Quoted '"' Plain (fun b => ∃ text, value.Says text ∧ b = text.flatMap escape)
      (pretty repr indent value) :=
    quoted_pretty hrepr fun text htext => ⟨text, htext, rfl⟩
  have hmapped : Quoted '"' (fun c => ∃ d, Plain d ∧ f d = c)
      (fun b => ∃ text, value.Says text ∧ b = (text.flatMap escape).map f)
      ((pretty repr indent value).map f) := by
    refine hquoted.map hf ?_ ?_
    · intro c hc
      exact ⟨c, hc, rfl⟩
    · rintro b ⟨text, htext, rfl⟩
      exact ⟨text, htext, rfl⟩
  have houtside : ∃ c ∈ w, ¬ ∃ d, Plain d ∧ f d = c := by
    obtain ⟨c, hc, hnot⟩ := hplain
    refine ⟨c, hc, ?_⟩
    rintro ⟨d, hd, hsame⟩
    exact hnot d hd hsame
  obtain ⟨b, ⟨text, htext, rfl⟩, hb⟩ := hmapped.inside hquote houtside hw
  exact ⟨text, htext, hb⟩

end Json
