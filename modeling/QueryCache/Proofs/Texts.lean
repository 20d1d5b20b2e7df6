import QueryCache.Proofs.Numerals

/-!
# Compact JSON text can be read in one way only

Strings end at their first quote that is not escaped, numbers where nothing continues them, and
arrays and objects at their bracket, so a text is the text of one value at most. Of the values
only those count that have a text of their own: numbers fit, and the members of an object
stand in ascending order of their names.
-/

namespace QueryCache.Json

/-! ## Strings -/

theorem hexValue?_digitChar {value : ℕ} (small : value < 16) :
    hexValue? (Nat.digitChar value) = some value := by
  have all : ∀ digit : Fin 16, hexValue? (Nat.digitChar digit) = some digit.val := by decide
  exact all ⟨value, small⟩

theorem readUnicode_control {c : Char} (control : c.toNat < 0x20) (rest : List Char) :
    readUnicode .strict ('0' :: '0' :: Nat.digitChar (c.toNat / 16) ::
      Nat.digitChar (c.toNat % 16) :: rest) = .ok (c, rest) := by
  have zero : hexValue? '0' = some 0 := by decide
  have hex : readHex4 ('0' :: '0' :: Nat.digitChar (c.toNat / 16) ::
      Nat.digitChar (c.toNat % 16) :: rest) = .ok (c.toNat, rest) := by
    rw [readHex4, zero, hexValue?_digitChar (by omega), hexValue?_digitChar (by omega)]
    dsimp only
    congr 2
    omega
  have low : ¬ (0xDC00 ≤ c.toNat ∧ c.toNat ≤ 0xDFFF) := by omega
  have high : ¬ (0xD800 ≤ c.toNat ∧ c.toNat ≤ 0xDBFF) := by omega
  simp [readUnicode, hex, bind, Except.bind, pure, Except.pure, low, high]

/-- An escaped character is read back. -/
theorem readStringFrom_escapedChar (c : Char) (fuel : ℕ) (done rest : List Char) :
    readStringFrom .strict (fuel + 1) done (escapedChar c ++ rest) =
      readStringFrom .strict fuel (c :: done) rest := by
  unfold escapedChar
  split_ifs with quote backslash newline carriage tab backspace feed control
  · rw [quote]; rfl
  · rw [backslash]; rfl
  · rw [newline]; rfl
  · rw [carriage]; rfl
  · rw [tab]; rfl
  · rw [backspace]; rfl
  · rw [feed]; rfl
  · simp [readStringFrom, readUnicode_control control, bind, Except.bind]
  · simp [readStringFrom, backslash, control]

/-- Escaped characters up to a quote are read back. -/
theorem readStringFrom_flatMap (text : List Char) (rest : List Char) :
    ∀ (fuel : ℕ) (done : List Char), text.length < fuel →
      readStringFrom .strict fuel done (text.flatMap escapedChar ++ '"' :: rest) =
        .ok (String.ofList (done.reverse ++ text), rest) := by
  induction text with
  | nil =>
      intro fuel done enough
      obtain ⟨fuel, rfl⟩ := Nat.exists_eq_succ_of_ne_zero enough.ne'
      simp [readStringFrom]
  | cons c text inductionHypothesis =>
      intro fuel done enough
      obtain ⟨fuel, rfl⟩ := Nat.exists_eq_succ_of_ne_zero (Nat.ne_zero_of_lt enough)
      rw [List.flatMap_cons, List.append_assoc, readStringFrom_escapedChar,
        inductionHypothesis fuel (c :: done) (Nat.lt_of_succ_lt_succ enough)]
      simp

theorem length_le_flatMap_escapedChar (text : List Char) :
    text.length ≤ (text.flatMap escapedChar).length := by
  induction text with
  | nil => exact Nat.le_refl 0
  | cons c text inductionHypothesis =>
      have present : 0 < (escapedChar c).length := by
        unfold escapedChar
        split_ifs <;> exact Nat.succ_pos _
      rw [List.flatMap_cons, List.length_append, List.length_cons]
      omega

/-- A string is read back from its text behind the opening quote. -/
theorem readString_stringChars (text : String) (rest : List Char) :
    readString .strict (text.toList.flatMap escapedChar ++ '"' :: rest) = .ok (text, rest) := by
  have room := length_le_flatMap_escapedChar text.toList
  rw [readString, readStringFrom_flatMap _ _ _ _ (by rw [List.length_append]; omega)]
  simp

theorem stringChars_append (text : String) (rest : List Char) :
    stringChars text ++ rest = '"' :: (text.toList.flatMap escapedChar ++ '"' :: rest) := by
  simp [stringChars]

/-- A string in front of anything is told by the text. -/
theorem stringChars_append_inj {text other : String} {rest rest' : List Char}
    (same : stringChars text ++ rest = stringChars other ++ rest') :
    text = other ∧ rest = rest' := by
  rw [stringChars_append, stringChars_append] at same
  have read := readString_stringChars text rest
  rw [(List.cons.inj same).2, readString_stringChars] at read
  exact Prod.mk.inj (Except.ok.inj read.symm)

/-! ## Values -/

/-- Members stand in ascending order of their names, one for each name. -/
def Ascending {α : Type} (members : List (String × α)) : Prop :=
  members.Pairwise fun member next => member.1 < next.1

/-- The value has a text of its own: its numbers fit, and the members of its objects
stand in order. -/
inductive Canonical : Json → Prop
  | null : Canonical .null
  | bool (value : Bool) : Canonical (.bool value)
  | number {value : Number} (fits : value.Fits) : Canonical (.number value)
  | string (text : String) : Canonical (.string text)
  | array {items : List Json} (each : ∀ item ∈ items, Canonical item) : Canonical (.array items)
  | object {members : List (String × Json)} (ascending : Ascending members)
      (each : ∀ member ∈ members, Canonical member.2) : Canonical (.object members)

/-- The character that opens the text of a value; a zero for all numbers, and one letter for both
truth values. -/
def opening : Json → Char
  | .null => 'n'
  | .bool _ => 't'
  | .number _ => '0'
  | .string _ => '"'
  | .array _ => '['
  | .object _ => '{'

/-- What a first character opens. -/
def opened (c : Char) : Char :=
  if c.isDigit || c = '-' then '0' else if c = 'f' then 't' else c

/-- The first character of a text tells the kind of the value. -/
theorem exists_opening {value : Json} (canonical : value.Canonical) :
    ∃ c cs, value.chars = c :: cs ∧ opened c = value.opening := by
  cases canonical with
  | null => exact ⟨_, _, rfl, rfl⟩
  | bool value => cases value <;> exact ⟨_, _, rfl, rfl⟩
  | number fits =>
      obtain ⟨numeral, writable, chars, -⟩ := Number.exists_numeral fits
      obtain ⟨digit, digits, whole⟩ := List.exists_cons_of_ne_nil writable.whole_ne_nil
      have isDigit := writable.whole_digits digit (whole ▸ List.mem_cons_self ..)
      rw [Json.chars, ← chars, Numeral.chars, whole]
      cases numeral.negative with
      | true => exact ⟨_, _, rfl, rfl⟩
      | false => exact ⟨_, _, rfl, by simp [opened, isDigit, opening]⟩
  | string text => exact ⟨_, _, rfl, rfl⟩
  | @array items each => cases items <;> exact ⟨_, _, rfl, rfl⟩
  | @object members ascending each => cases members <;> exact ⟨_, _, rfl, rfl⟩

theorem opening_eq_of_append {value other : Json} (canonical : value.Canonical)
    (canonical' : other.Canonical) {rest rest' : List Char}
    (same : value.chars ++ rest = other.chars ++ rest') : value.opening = other.opening := by
  obtain ⟨c, cs, chars, opens⟩ := exists_opening canonical
  obtain ⟨c', cs', chars', opens'⟩ := exists_opening canonical'
  rw [chars, chars'] at same
  rw [← opens, ← opens', (List.cons.inj same).1]

/-- Behind an item stands a comma or the closing bracket. -/
theorem endsNumeral_itemsChars (items : List Json) (rest : List Char) :
    EndsNumeral (itemsChars items ++ ']' :: rest) := by
  cases items <;>
    · rintro c ⟨⟩
      decide

theorem endsNumeral_membersChars (members : List (String × Json)) (rest : List Char) :
    EndsNumeral (membersChars members ++ '}' :: rest) := by
  cases members <;>
    · rintro c ⟨⟩
      decide

/-- No value begins with the bracket that closes an array. -/
theorem chars_append_ne {value : Json} (canonical : value.Canonical) (rest rest' : List Char) :
    value.chars ++ rest ≠ ']' :: rest' := by
  obtain ⟨c, cs, chars, opens⟩ := exists_opening canonical
  rw [chars]
  rintro same
  rw [(List.cons.inj same).1] at opens
  cases value <;> simp [opening, opened] at opens

theorem array_cons_append (item : Json) (items : List Json) (rest : List Char) :
    chars (.array (item :: items)) ++ rest =
      '[' :: (item.chars ++ (itemsChars items ++ ']' :: rest)) := by
  simp [chars]

theorem object_cons_append (member : String × Json) (members : List (String × Json))
    (rest : List Char) :
    chars (.object (member :: members)) ++ rest = '{' :: (stringChars member.1 ++
      ':' :: (member.2.chars ++ (membersChars members ++ '}' :: rest))) := by
  simp [chars]

theorem itemsChars_cons_append (item : Json) (items : List Json) (rest : List Char) :
    itemsChars (item :: items) ++ rest = ',' :: (item.chars ++ (itemsChars items ++ rest)) := by
  simp [itemsChars]

theorem membersChars_cons_append (member : String × Json) (members : List (String × Json))
    (rest : List Char) :
    membersChars (member :: members) ++ rest = ',' :: (stringChars member.1 ++
      ':' :: (member.2.chars ++ (membersChars members ++ rest))) := by
  simp [membersChars]

/-- What stands between the brackets of two arrays of one text. -/
theorem itemsChars_eq_of_array {items others : List Json} (each : ∀ item ∈ items, item.Canonical)
    (each' : ∀ item ∈ others, item.Canonical) {rest rest' : List Char}
    (same : chars (.array items) ++ rest = chars (.array others) ++ rest') :
    itemsChars items ++ ']' :: rest = itemsChars others ++ ']' :: rest' := by
  cases items with
  | nil =>
      cases others with
      | nil => exact (List.cons.inj same).2
      | cons item others =>
          rw [array_cons_append] at same
          exact absurd (List.cons.inj same).2.symm
            (chars_append_ne (each' item (List.mem_cons_self ..)) _ _)
  | cons item items =>
      rw [array_cons_append] at same
      cases others with
      | nil =>
          exact absurd (List.cons.inj same).2
            (chars_append_ne (each item (List.mem_cons_self ..)) _ _)
      | cons item' others =>
          rw [array_cons_append] at same
          rw [itemsChars_cons_append, itemsChars_cons_append, (List.cons.inj same).2]

/-- What stands between the braces of two objects of one text. -/
theorem membersChars_eq_of_object {members others : List (String × Json)} {rest rest' : List Char}
    (same : chars (.object members) ++ rest = chars (.object others) ++ rest') :
    membersChars members ++ '}' :: rest = membersChars others ++ '}' :: rest' := by
  cases members with
  | nil =>
      cases others with
      | nil => exact (List.cons.inj same).2
      | cons member others =>
          rw [object_cons_append] at same
          exact absurd (List.cons.inj (List.cons.inj same).2).1 (by decide)
  | cons member members =>
      rw [object_cons_append] at same
      cases others with
      | nil => exact absurd (List.cons.inj (List.cons.inj same).2).1 (by decide)
      | cons member' others =>
          rw [object_cons_append] at same
          rw [membersChars_cons_append, membersChars_cons_append, (List.cons.inj same).2]

theorem boolChars_append_inj {value other : Bool} {rest rest' : List Char}
    (same : chars (.bool value) ++ rest = chars (.bool other) ++ rest') :
    value = other ∧ rest = rest' := by
  cases value <;> cases other
  · exact ⟨rfl, List.append_cancel_left same⟩
  · exact absurd (List.cons.inj same).1 (by decide)
  · exact absurd (List.cons.inj same).1 (by decide)
  · exact ⟨rfl, List.append_cancel_left same⟩

-- The recursion is on the first value; of what kind the second is, its first character tells.
mutual

/-- A value in front of what does not continue a number is told by the text. -/
theorem chars_append_inj : ∀ (value other : Json), value.Canonical → other.Canonical →
    ∀ (rest rest' : List Char), EndsNumeral rest → EndsNumeral rest' →
      value.chars ++ rest = other.chars ++ rest' → value = other ∧ rest = rest'
  | .null, other, canonical, canonical', rest, rest', ends, ends', same => by
      have opens := opening_eq_of_append canonical canonical' same
      cases other with
      | null => exact ⟨rfl, List.append_cancel_left same⟩
      | _ => simp [opening] at opens
  | .bool value, other, canonical, canonical', rest, rest', ends, ends', same => by
      have opens := opening_eq_of_append canonical canonical' same
      cases other with
      | bool value' =>
          obtain ⟨rfl, behind⟩ := boolChars_append_inj same
          exact ⟨rfl, behind⟩
      | _ => simp [opening] at opens
  | .number value, other, .number fits, canonical', rest, rest', ends, ends', same => by
      have opens := opening_eq_of_append (.number fits) canonical' same
      cases canonical' with
      | number fits' =>
          obtain ⟨rfl, behind⟩ := Number.chars_append_inj fits fits' ends ends' same
          exact ⟨rfl, behind⟩
      | _ => simp [opening] at opens
  | .string text, other, canonical, canonical', rest, rest', ends, ends', same => by
      have opens := opening_eq_of_append canonical canonical' same
      cases other with
      | string text' =>
          obtain ⟨rfl, behind⟩ := stringChars_append_inj same
          exact ⟨rfl, behind⟩
      | _ => simp [opening] at opens
  | .array items, other, .array each, canonical', rest, rest', ends, ends', same => by
      have opens := opening_eq_of_append (.array each) canonical' same
      cases canonical' with
      | @array items' each' =>
          obtain ⟨rfl, behind⟩ := itemsChars_append_inj items items' each each' rest rest'
            (itemsChars_eq_of_array each each' same)
          exact ⟨rfl, behind⟩
      | _ => simp [opening] at opens
  | .object members, other, .object ascending each, canonical', rest, rest', ends, ends', same => by
      have opens := opening_eq_of_append (.object ascending each) canonical' same
      cases canonical' with
      | @object members' ascending' each' =>
          obtain ⟨rfl, behind⟩ := membersChars_append_inj members members' each each' rest rest'
            (membersChars_eq_of_object same)
          exact ⟨rfl, behind⟩
      | _ => simp [opening] at opens

/-- The items up to the closing bracket are told by the text. -/
theorem itemsChars_append_inj : ∀ (items others : List Json), (∀ item ∈ items, item.Canonical) →
    (∀ item ∈ others, item.Canonical) → ∀ (rest rest' : List Char),
      itemsChars items ++ ']' :: rest = itemsChars others ++ ']' :: rest' →
      items = others ∧ rest = rest'
  | [], [], _, _, rest, rest', same => ⟨rfl, (List.cons.inj same).2⟩
  | [], item :: others, _, _, rest, rest', same =>
      absurd (List.cons.inj same).1 (by decide)
  | item :: items, [], _, _, rest, rest', same =>
      absurd (List.cons.inj same).1 (by decide)
  | item :: items, item' :: others, each, each', rest, rest', same => by
      rw [itemsChars_cons_append, itemsChars_cons_append] at same
      obtain ⟨rfl, behind⟩ := chars_append_inj item item'
        (each item (List.mem_cons_self ..)) (each' item' (List.mem_cons_self ..)) _ _
        (endsNumeral_itemsChars _ _) (endsNumeral_itemsChars _ _) (List.cons.inj same).2
      obtain ⟨rfl, last⟩ := itemsChars_append_inj items others
        (fun item member => each item (List.mem_cons_of_mem _ member))
        (fun item member => each' item (List.mem_cons_of_mem _ member)) _ _ behind
      exact ⟨rfl, last⟩

/-- The members up to the closing brace are told by the text. -/
theorem membersChars_append_inj : ∀ (members others : List (String × Json)),
    (∀ member ∈ members, member.2.Canonical) → (∀ member ∈ others, member.2.Canonical) →
    ∀ (rest rest' : List Char),
      membersChars members ++ '}' :: rest = membersChars others ++ '}' :: rest' →
      members = others ∧ rest = rest'
  | [], [], _, _, rest, rest', same => ⟨rfl, (List.cons.inj same).2⟩
  | [], (name, value) :: others, _, _, rest, rest', same =>
      absurd (List.cons.inj same).1 (by decide)
  | (name, value) :: members, [], _, _, rest, rest', same =>
      absurd (List.cons.inj same).1 (by decide)
  | (name, value) :: members, (name', value') :: others, each, each', rest, rest', same => by
      rw [membersChars_cons_append, membersChars_cons_append] at same
      obtain ⟨rfl, colon⟩ := stringChars_append_inj (List.cons.inj same).2
      obtain ⟨rfl, behind⟩ := chars_append_inj value value'
        (each _ (List.mem_cons_self ..)) (each' _ (List.mem_cons_self ..)) _ _
        (endsNumeral_membersChars _ _) (endsNumeral_membersChars _ _) (List.cons.inj colon).2
      obtain ⟨rfl, last⟩ := membersChars_append_inj members others
        (fun member present => each member (List.mem_cons_of_mem _ present))
        (fun member present => each' member (List.mem_cons_of_mem _ present)) _ _ behind
      exact ⟨rfl, last⟩

end

/-- Different values have different texts. -/
theorem render_inj {value other : Json} (canonical : value.Canonical)
    (canonical' : other.Canonical) (same : value.render = other.render) : value = other := by
  have nothing : EndsNumeral [] := fun c first => by cases first
  have chars : value.chars ++ [] = other.chars ++ [] := by
    rw [String.ofList_injective same]
  exact (chars_append_inj value other canonical canonical' [] [] nothing nothing chars).1

end QueryCache.Json
