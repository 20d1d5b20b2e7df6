import QueryCache.Proofs.Actions
import QueryCache.Proofs.Texts
import QueryCache.Key

/-!
# The JSON value of a datum is canonical

However the entries of its maps were ordered, the JSON value of a datum has a text of its own, and
of the entries under one name the last counts. A canonical value is its own JSON value. Between
canonical values, being alike up to the order of members is the same as being equal.
-/

namespace QueryCache.Json

variable {α : Type} {name : String} {value : α} {members : List (String × α)}

/-! ## Members in order -/

theorem lt_of_not_lt {first second : String} (larger : ¬ first < second)
    (different : first ≠ second) : second < first :=
  Decidable.byContradiction fun smaller =>
    different (String.le_antisymm (String.not_lt.mp smaller) (String.not_lt.mp larger))

theorem mem_of_mem_insertMember {member : String × α}
    (present : member ∈ insertMember name value members) :
    member = (name, value) ∨ member ∈ members := by
  induction members with
  | nil => exact .inl (List.mem_singleton.mp present)
  | cons head members inductionHypothesis =>
      obtain ⟨other, old⟩ := head
      unfold insertMember at present
      split at present
      · exact List.mem_cons.mp present
      · split at present
        · exact (List.mem_cons.mp present).imp_right (List.mem_cons_of_mem _)
        · rcases List.mem_cons.mp present with same | behind
          · exact .inr (same ▸ List.mem_cons_self ..)
          · exact (inductionHypothesis behind).imp_right (List.mem_cons_of_mem _)

/-- A member that is inserted leaves the others in order. -/
theorem Ascending.insertMember (ascending : Ascending members) :
    Ascending (insertMember name value members) := by
  induction members with
  | nil => exact List.pairwise_singleton _ _
  | cons head members inductionHypothesis =>
      obtain ⟨other, old⟩ := head
      obtain ⟨behind, rest⟩ := List.pairwise_cons.mp ascending
      unfold Json.insertMember
      split
      · rename_i smaller
        refine List.pairwise_cons.mpr ⟨fun member present => ?_, ascending⟩
        rcases List.mem_cons.mp present with rfl | further
        · exact smaller
        · exact String.lt_trans smaller (behind member further)
      · rename_i larger
        split
        · rename_i same
          exact List.pairwise_cons.mpr ⟨fun member present => same ▸ behind member present, rest⟩
        · rename_i different
          refine List.pairwise_cons.mpr ⟨fun member present => ?_, inductionHypothesis rest⟩
          rcases mem_of_mem_insertMember present with rfl | further
          · exact lt_of_not_lt larger different
          · exact behind member further

/-- A member behind all others is inserted at the end. -/
theorem insertMember_of_behind (behind : ∀ member ∈ members, member.1 < name) :
    insertMember name value members = members ++ [(name, value)] := by
  induction members with
  | nil => rfl
  | cons head members inductionHypothesis =>
      obtain ⟨smaller, others⟩ := List.forall_mem_cons.mp behind
      have larger : ¬ name < head.1 := fun above =>
        String.lt_irrefl _ (String.lt_trans smaller above)
      have different : name ≠ head.1 := fun same => String.lt_irrefl _ (same ▸ smaller)
      rw [insertMember, if_neg larger, if_neg different, inductionHypothesis others]
      rfl

/-- Members that stand in order stay as they are. -/
theorem foldl_insertMember_of_ascending (sorted : List (String × α)) :
    Ascending (sorted ++ members) →
      members.foldl (fun sorted member => insertMember member.1 member.2 sorted) sorted =
        sorted ++ members := by
  induction members generalizing sorted with
  | nil => exact fun _ => (List.append_nil sorted).symm
  | cons member members inductionHypothesis =>
      intro ascending
      have behind : ∀ other ∈ sorted, other.1 < member.1 := fun other present =>
        (List.pairwise_append.mp ascending).2.2 other present member (List.mem_cons_self ..)
      rw [List.append_cons] at ascending ⊢
      rw [List.foldl_cons, insertMember_of_behind behind]
      exact inductionHypothesis _ ascending

theorem ofMembers_of_ascending {members : List (String × Json)} (ascending : Ascending members) :
    ofMembers members = .object members := by
  rw [ofMembers, foldl_insertMember_of_ascending [] ascending, List.nil_append]

theorem canonical_foldl_insertMember (members : List (String × Json)) :
    ∀ sorted : List (String × Json), (Json.object sorted).Canonical →
      (∀ member ∈ members, member.2.Canonical) →
        (Json.object (members.foldl
          (fun sorted member => insertMember member.1 member.2 sorted) sorted)).Canonical := by
  induction members with
  | nil => exact fun sorted canonical _ => canonical
  | cons member members inductionHypothesis =>
      intro sorted canonical each
      obtain ⟨first, others⟩ := List.forall_mem_cons.mp each
      cases canonical with
      | object ascending each' =>
          refine inductionHypothesis _
            (.object ascending.insertMember fun other present => ?_) others
          rcases mem_of_mem_insertMember present with rfl | older
          · exact first
          · exact each' other older

theorem canonical_ofMembers {members : List (String × Json)}
    (each : ∀ member ∈ members, member.2.Canonical) : (ofMembers members).Canonical :=
  canonical_foldl_insertMember members [] (.object List.Pairwise.nil (by simp)) each

theorem mem_of_lookup_eq_some (found : members.lookup name = some value) :
    (name, value) ∈ members := by
  obtain ⟨front, back, rfl, -⟩ := List.lookup_eq_some_iff.mp found
  exact List.mem_append_right _ (List.mem_cons_self ..)

/-- Where members stand in order, each is found under its name. -/
theorem Ascending.lookup_eq_some (ascending : Ascending members)
    (present : (name, value) ∈ members) : members.lookup name = some value := by
  induction members with
  | nil => cases present
  | cons head members inductionHypothesis =>
      obtain ⟨behind, rest⟩ := List.pairwise_cons.mp ascending
      rcases List.mem_cons.mp present with rfl | further
      · exact List.lookup_cons_self
      · have different : name ≠ head.1 := fun same =>
          String.lt_irrefl _ (same ▸ behind _ further)
        rw [List.lookup_cons, beq_false_of_ne different]
        exact inductionHypothesis rest further

/-- Members that stand in order are determined by what is found under each name. -/
theorem Ascending.ext {others : List (String × α)} (ascending : Ascending members)
    (ascending' : Ascending others) (same : ∀ name, members.lookup name = others.lookup name) :
    members = others := by
  have nodup {list : List (String × α)} (sorted : Ascending list) : list.Nodup := by
    refine List.Pairwise.imp ?_ sorted
    rintro member _ smaller rfl
    exact String.lt_irrefl _ smaller
  have permutes : members.Perm others :=
    (List.perm_ext_iff_of_nodup (nodup ascending) (nodup ascending')).mpr fun member =>
      ⟨fun present => mem_of_lookup_eq_some (same _ ▸ ascending.lookup_eq_some present),
        fun present => mem_of_lookup_eq_some (same _ ▸ ascending'.lookup_eq_some present)⟩
  exact permutes.eq_of_pairwise
    (fun _ _ _ _ smaller larger => absurd (String.lt_trans smaller larger) (String.lt_irrefl _))
    ascending ascending'

end QueryCache.Json

/-! ## The JSON value of a datum -/

namespace QueryCache.Datum

open QueryCache.Action (exists_of_bind_eq_ok)

theorem canonical_intJson {number : ℤ} {value : Json} (converted : intJson number = .ok value) :
    value.Canonical := by
  unfold intJson at converted
  split at converted
  · rename_i bounds
    cases converted
    exact .number bounds
  · cases converted

theorem canonical_floatJson (bits : UInt64) : (floatJson bits).Canonical := by
  unfold floatJson
  split
  · rename_i negative magnitude read
    exact .number ⟨negative, magnitude, read⟩
  · exact .null

theorem canonical_caseJson {content : Json} (canonical : content.Canonical) (name : String) :
    (caseJson name content).Canonical := by
  refine .object (List.pairwise_singleton _ _) fun member present => ?_
  rw [List.mem_singleton.mp present]
  exact canonical

theorem canonical_bytes (bytes : List UInt8) :
    (Json.array (bytes.map fun byte => .number (.int byte.toNat))).Canonical := by
  refine .array fun item present => ?_
  obtain ⟨byte, -, rfl⟩ := List.mem_map.mp present
  have small : byte.toNat < 256 := byte.toNat_lt
  have least : Width.w64.signedLimit = 9223372036854775808 := by decide
  have limit : Width.w64.limit = 18446744073709551616 := by decide
  have fits : Number.Fits (.int byte.toNat) := by
    rw [Number.Fits, least, limit]
    constructor <;> omega
  exact .number fits

/-- A value that is made of parts is canonical if the parts make it so. -/
theorem canonical_of_return {α : Type} {parts : Except JsonFault α} {form : α → Json}
    {value : Json} (converted : (do return form (← parts)) = Except.ok value)
    (canonical : ∀ made, parts = .ok made → (form made).Canonical) : value.Canonical := by
  obtain ⟨made, partsConverted, same⟩ := exists_of_bind_eq_ok converted
  cases same
  exact canonical made partsConverted

mutual

/-- The JSON value of a datum is canonical. -/
theorem canonical_toJson : ∀ (datum : Datum) (value : Json), datum.toJson = .ok value →
    value.Canonical
  | .unit => fun _ converted => by cases converted; exact .null
  | .bool value => fun _ converted => by cases converted; exact .bool value
  | .unsigned _ _ => fun _ converted => canonical_intJson converted
  | .signed _ _ => fun _ converted => canonical_intJson converted
  | .float32 bits => fun _ converted => by cases converted; exact canonical_floatJson _
  | .float64 bits => fun _ converted => by cases converted; exact canonical_floatJson bits
  | .char _ => fun _ converted => by cases converted; exact .string _
  | .text value => fun _ converted => by cases converted; exact .string value
  | .bytes value => fun _ converted => by cases converted; exact canonical_bytes value
  | .absent => fun _ converted => by cases converted; exact .null
  | .present value => fun _ converted => canonical_toJson value _ converted
  | .list items => fun _ converted => canonical_of_return converted fun values made =>
      .array (canonical_itemsJson items values made)
  | .stream items => fun _ converted => canonical_of_return converted fun values made =>
      .array (canonical_itemsJson items values made)
  | .tuple items => fun _ converted => canonical_of_return converted fun values made =>
      .array (canonical_itemsJson items values made)
  | .map entries => fun _ converted => canonical_of_return converted fun members made =>
      Json.canonical_ofMembers (canonical_entriesJson entries members made)
  | .entryStream entries => fun _ converted => canonical_of_return converted fun members made =>
      Json.canonical_ofMembers (canonical_entriesJson entries members made)
  | .record fields => fun _ converted => canonical_of_return converted fun members made =>
      Json.canonical_ofMembers (canonical_fieldsJson fields members made)
  | .unitCase _ name => fun _ converted => by cases converted; exact .string name
  | .wrapCase _ name content => fun _ converted => canonical_of_return converted fun value made =>
      canonical_caseJson (canonical_toJson content value made) name
  | .tupleCase _ name items => fun _ converted => canonical_of_return converted fun values made =>
      canonical_caseJson (.array (canonical_itemsJson items values made)) name
  | .recordCase _ name fields => fun _ converted =>
      canonical_of_return converted fun members made => canonical_caseJson
        (Json.canonical_ofMembers (canonical_fieldsJson fields members made)) name
  | .refusal _ => fun _ converted => by cases converted

theorem canonical_itemsJson : ∀ (items : List Datum) (values : List Json),
    itemsJson items = .ok values → ∀ value ∈ values, value.Canonical
  | [], _, converted => by cases converted; simp
  | item :: items, _, converted => by
      obtain ⟨value, itemConverted, others⟩ := exists_of_bind_eq_ok converted
      obtain ⟨values, itemsConverted, same⟩ := exists_of_bind_eq_ok others
      cases same
      exact List.forall_mem_cons.mpr ⟨canonical_toJson item value itemConverted,
        canonical_itemsJson items values itemsConverted⟩

theorem canonical_entriesJson : ∀ (entries : List (Datum × Datum))
    (members : List (String × Json)), entriesJson entries = .ok members →
      ∀ member ∈ members, member.2.Canonical
  | [], _, converted => by cases converted; simp
  | (key, value) :: entries, _, converted => by
      obtain ⟨name, -, behind⟩ := exists_of_bind_eq_ok converted
      obtain ⟨content, valueConverted, others⟩ := exists_of_bind_eq_ok behind
      obtain ⟨members, entriesConverted, same⟩ := exists_of_bind_eq_ok others
      cases same
      exact List.forall_mem_cons.mpr ⟨canonical_toJson value content valueConverted,
        canonical_entriesJson entries members entriesConverted⟩

theorem canonical_fieldsJson : ∀ (fields : List (String × Datum))
    (members : List (String × Json)), fieldsJson fields = .ok members →
      ∀ member ∈ members, member.2.Canonical
  | [], _, converted => by cases converted; simp
  | (name, value) :: fields, _, converted => by
      obtain ⟨content, valueConverted, others⟩ := exists_of_bind_eq_ok converted
      obtain ⟨members, fieldsConverted, same⟩ := exists_of_bind_eq_ok others
      cases same
      exact List.forall_mem_cons.mpr ⟨canonical_toJson value content valueConverted,
        canonical_fieldsJson fields members fieldsConverted⟩

end

/-- A canonical number is its own JSON value. -/
theorem toJson_ofJson_number {number : Number} (fits : number.Fits) :
    (ofJson (.number number)).toJson = .ok (.number number) := by
  cases number with
  | int value =>
      obtain ⟨low, high⟩ := fits
      rw [ofJson]
      split
      · rw [toJson, intJson, if_pos ⟨low, high⟩]
      · rename_i positive
        rw [toJson, intJson, Int.toNat_of_nonneg (not_lt.mp positive), if_pos ⟨low, high⟩]
  | float bits =>
      obtain ⟨negative, magnitude, read⟩ := fits
      rw [ofJson, toJson, floatJson, read]

mutual

/-- A canonical value is its own JSON value. -/
theorem toJson_ofJson : ∀ value : Json, value.Canonical → (ofJson value).toJson = .ok value
  | .null, _ => rfl
  | .bool _, _ => rfl
  | .number _, .number fits => toJson_ofJson_number fits
  | .string _, _ => rfl
  | .array items, .array each => by
      rw [ofJson, toJson, itemsJson_ofItems items each]
      rfl
  | .object members, .object ascending each => by
      rw [ofJson, toJson, entriesJson_ofMembers members each]
      exact congrArg Except.ok (Json.ofMembers_of_ascending ascending)

theorem itemsJson_ofItems : ∀ items : List Json, (∀ item ∈ items, item.Canonical) →
    itemsJson (ofItems items) = .ok items
  | [], _ => rfl
  | item :: items, each => by
      rw [ofItems, itemsJson, toJson_ofJson item (each item (List.mem_cons_self ..)),
        itemsJson_ofItems items fun item member => each item (List.mem_cons_of_mem _ member)]
      rfl

theorem entriesJson_ofMembers : ∀ members : List (String × Json),
    (∀ member ∈ members, member.2.Canonical) → entriesJson (ofMembers members) = .ok members
  | [], _ => rfl
  | (name, value) :: members, each => by
      rw [ofMembers, entriesJson, toJson_ofJson value (each _ (List.mem_cons_self ..)),
        entriesJson_ofMembers members fun member present =>
          each member (List.mem_cons_of_mem _ present)]
      rfl

end

end QueryCache.Datum

/-! ## Values alike up to the order of members -/

namespace QueryCache.Json

/-- Two values are the same when their objects are taken as maps from names to values. -/
inductive Alike : Json → Json → Prop
  | null : Alike .null .null
  | bool (value : Bool) : Alike (.bool value) (.bool value)
  | number (value : Number) : Alike (.number value) (.number value)
  | string (text : String) : Alike (.string text) (.string text)
  | array {items others : List Json} (each : List.Forall₂ Alike items others) :
      Alike (.array items) (.array others)
  | object {members others : List (String × Json)}
      (each : ∀ name, Option.Rel Alike (members.lookup name) (others.lookup name)) :
      Alike (.object members) (.object others)

mutual

theorem Alike.refl : ∀ value : Json, Alike value value
  | .null => .null
  | .bool value => .bool value
  | .number value => .number value
  | .string text => .string text
  | .array items => .array (forall₂_alike_refl items)
  | .object members => .object (rel_lookup_refl members)

theorem forall₂_alike_refl : ∀ items : List Json, List.Forall₂ Alike items items
  | [] => .nil
  | item :: items => .cons (Alike.refl item) (forall₂_alike_refl items)

theorem rel_lookup_refl : ∀ (members : List (String × Json)) (name : String),
    Option.Rel Alike (members.lookup name) (members.lookup name)
  | [], _ => .none
  | (other, value) :: members, name => by
      rw [List.lookup_cons]
      split
      · exact .some (Alike.refl value)
      · exact rel_lookup_refl members name

end

mutual

/-- Canonical values that are alike are equal. -/
theorem eq_of_alike : ∀ value other : Json, value.Canonical → other.Canonical →
    Alike value other → value = other
  | .null, _, _, _, .null => rfl
  | .bool _, _, _, _, .bool _ => rfl
  | .number _, _, _, _, .number _ => rfl
  | .string _, _, _, _, .string _ => rfl
  | .array items, .array others, .array each, .array each', .array alike => by
      rw [eq_of_forall₂_alike items others each each' alike]
  | .object members, .object others, .object ascending each, .object ascending' each',
      .object alike => by
      rw [ascending.ext ascending' fun name =>
        lookup_eq_of_rel members others each each' name (alike name)]

theorem eq_of_forall₂_alike : ∀ items others : List Json, (∀ item ∈ items, item.Canonical) →
    (∀ item ∈ others, item.Canonical) → List.Forall₂ Alike items others → items = others
  | [], _, _, _, .nil => rfl
  | item :: items, other :: others, each, each', .cons first behind => by
      rw [eq_of_alike item other (each item (List.mem_cons_self ..))
          (each' other (List.mem_cons_self ..)) first,
        eq_of_forall₂_alike items others
          (fun item member => each item (List.mem_cons_of_mem _ member))
          (fun item member => each' item (List.mem_cons_of_mem _ member)) behind]

theorem lookup_eq_of_rel : ∀ members others : List (String × Json),
    (∀ member ∈ members, member.2.Canonical) → (∀ member ∈ others, member.2.Canonical) →
    ∀ name, Option.Rel Alike (members.lookup name) (others.lookup name) →
      members.lookup name = others.lookup name
  | [], others, _, _, name, same => by
      cases found : others.lookup name with
      | none => rfl
      | some _ =>
          rw [found] at same
          cases same
  | (other, value) :: members, others, each, each', name, same => by
      rw [List.lookup_cons] at same ⊢
      split
      · rename_i here
        rw [here] at same
        cases found : others.lookup name with
        | none =>
            rw [found] at same
            cases same
        | some value' =>
            rw [found] at same
            cases same with
            | some alike =>
                rw [eq_of_alike value value' (each _ (List.mem_cons_self ..))
                  (each' _ (mem_of_lookup_eq_some found)) alike]
      · rename_i elsewhere
        rw [elsewhere] at same
        exact lookup_eq_of_rel members others
          (fun member present => each member (List.mem_cons_of_mem _ present)) each' name same

end

theorem rel_alike_refl (found : Option Json) : Option.Rel Alike found found := by
  cases found with
  | none => exact .none
  | some value => exact .some (Alike.refl value)

theorem eq_of_rel_alike {first second : Option Json}
    (canonical : ∀ value, first = some value → value.Canonical)
    (canonical' : ∀ value, second = some value → value.Canonical)
    (alike : Option.Rel Alike first second) : first = second := by
  cases alike with
  | none => rfl
  | some alike => rw [eq_of_alike _ _ (canonical _ rfl) (canonical' _ rfl) alike]

end QueryCache.Json
