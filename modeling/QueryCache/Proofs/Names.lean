import QueryCache.Proofs.Actions
import QueryCache.Schema

/-!
# Names of entities and queries

An entity is stored under the JSON text of its identifier, and the query for it is named by the JSON
value of its identifier. Whatever has a JSON value has a JSON text, but not the other way round: an
integer of more than 64 bits and a map with optional keys can be written, and are no JSON values.

Where different identifiers are written differently, different entities are stored under different
keys, the queries for them have different texts, and none of these is the text of the query for all
entities.
-/

namespace QueryCache

namespace Datum

variable {α β γ δ : Type}

/-- Where one conversion succeeds, another one does. -/
def Entails (first : Except JsonFault α) (second : Except JsonFault β) : Prop :=
  ∀ value, first = .ok value → ∃ other, second = .ok other

namespace Entails

theorem ok (first : Except JsonFault α) (value : β) :
    Entails first (.ok value : Except JsonFault β) :=
  fun _ _ => ⟨value, rfl⟩

theorem error (fault : JsonFault) (second : Except JsonFault β) :
    Entails (.error fault : Except JsonFault α) second := by
  intro value converted
  cases converted

theorem bind {first : Except JsonFault α} {second : Except JsonFault β}
    {firstNext : α → Except JsonFault γ} {secondNext : β → Except JsonFault δ}
    (start : Entails first second)
    (next : ∀ value other, Entails (firstNext value) (secondNext other)) :
    Entails (first >>= firstNext) (second >>= secondNext) := by
  intro value converted
  obtain ⟨middle, started, ended⟩ := Action.exists_of_bind_eq_ok converted
  obtain ⟨other, otherStarted⟩ := start middle started
  rw [otherStarted]
  exact next middle other value ended

/-- What is made of the values of two conversions does not matter. -/
theorem form {first : Except JsonFault α} {second : Except JsonFault β}
    (start : Entails first second)
    (formFirst : α → γ) (formSecond : β → δ) :
    Entails (do return formFirst (← first)) (do return formSecond (← second)) :=
  start.bind fun _ _ => .ok _ _

end Entails

theorem entails_entryName (key : Datum) : Entails (memberName key) (entryName key) := by
  cases key with
  | present value => exact .error _ _
  | _ => exact fun name named => ⟨name, named⟩

mutual

/-- A datum that has a JSON value has a JSON text. -/
theorem entails_chars : ∀ datum : Datum, Entails datum.toJson datum.chars
  | .present value => entails_chars value
  | .list items => (entails_itemsChars items).form _ _
  | .stream items => (entails_itemsChars items).form _ _
  | .tuple items => (entails_itemsChars items).form _ _
  | .map entries => (entails_entriesChars entries).form _ _
  | .entryStream entries => (entails_entriesChars entries).form _ _
  | .record fields => (entails_fieldsChars fields).form _ _
  | .wrapCase _ _ content => (entails_chars content).form _ _
  | .tupleCase _ _ items => (entails_itemsChars items).form _ _
  | .recordCase _ _ fields => (entails_fieldsChars fields).form _ _
  | .refusal _ => .error _ _
  | .bool true | .bool false | .unit | .unsigned _ _ | .signed _ _ | .float32 _ | .float64 _
  | .char _ | .text _ | .bytes _ | .absent | .unitCase _ _ => .ok _ _

theorem entails_itemsChars : ∀ items : List Datum, Entails (itemsJson items) (itemsChars items)
  | [] => .ok _ _
  | item :: items => (entails_chars item).bind fun _ _ => (entails_itemsChars items).form _ _

theorem entails_entriesChars : ∀ entries : List (Datum × Datum),
    Entails (entriesJson entries) (entriesChars entries)
  | [] => .ok _ _
  | (key, value) :: entries =>
      (entails_entryName key).bind fun _ _ => (entails_chars value).bind fun _ _ =>
        (entails_entriesChars entries).form _ _

theorem entails_fieldsChars : ∀ fields : List (String × Datum),
    Entails (fieldsJson fields) (fieldsChars fields)
  | [] => .ok _ _
  | (_, value) :: fields =>
      (entails_chars value).bind fun _ _ => (entails_fieldsChars fields).form _ _

end

/-- An integer of more than 64 bits has a JSON text and no JSON value. -/
example : (unsigned .w128 (2 ^ 64)).jsonText = .ok "18446744073709551616" ∧
    (unsigned .w128 (2 ^ 64)).json = .error (.deserialization "number out of range") :=
  ⟨rfl, rfl⟩

end Datum

/-- The text of a query for one entity begins with the name of the operation. -/
theorem QueryKey.toList_encode_findByIdJson (value : Json) :
    (findByIdJson value).encode.toList =
      "[\"FindByID\",\x7b\"ID\":".toList ++ value.chars ++ "\x7d]".toList := by
  have members : (findByIdJson value).arguments.toList = [("ID", value)] := rfl
  have operation : (findByIdJson value).operation = "FindByID" := rfl
  rw [encode, toJson, members, operation, Json.render, String.toList_ofList]
  simp [Json.chars, Json.itemsChars, Json.membersChars, Json.stringChars, Json.escapedChar]

namespace Schema

variable {ι ε : Type} {schema : Schema ι ε} {id other : ι} {key : String}

theorem entityKey_eq_ok :
    schema.entityKey id = .ok key ↔
      ∃ text, (schema.idDatum id).render = .ok text ∧ schema.label ++ ":" ++ text = key := by
  unfold entityKey Datum.jsonText
  cases (schema.idDatum id).render with
  | error fault => simp [bind, Except.bind]
  | ok text => simp [bind, Except.bind, pure, Except.pure]

/-- An identifier may have no JSON text, which is no failure of a context. -/
theorem tolerable_entityKey (schema : Schema ι ε) (id : ι) :
    Action.Tolerable (schema.entityKey id) := by
  intro e failed
  unfold entityKey Datum.jsonText at failed
  cases written : (schema.idDatum id).render with
  | ok text =>
      rw [written] at failed
      cases failed
  | error fault =>
      rw [written] at failed
      cases failed
      cases fault <;> rfl

theorem findByIdKey_eq_ok :
    schema.findByIdKey id = .ok key ↔
      ∃ value, (schema.idDatum id).json = .ok value ∧
        (QueryKey.findByIdJson value).encode = key := by
  unfold findByIdKey QueryKey.findById QueryKey.argument
  cases (schema.idDatum id).json with
  | error e => simp [bind, Except.bind]
  | ok value => simp [bind, Except.bind, pure, Except.pure, QueryKey.findByIdJson]

/-- An identifier may have no JSON value, which is no failure of a context. -/
theorem tolerable_findByIdKey (schema : Schema ι ε) (id : ι) :
    Action.Tolerable (schema.findByIdKey id) := by
  intro e failed
  unfold findByIdKey QueryKey.findById QueryKey.argument Datum.json at failed
  cases converted : (schema.idDatum id).toJson with
  | ok value =>
      rw [converted] at failed
      cases failed
  | error fault =>
      rw [converted] at failed
      cases failed
      cases fault <;> rfl

/-- An entity for which there is a query can be stored. -/
theorem entityKey_of_findByIdKey (named : schema.findByIdKey id = .ok key) :
    ∃ place, schema.entityKey id = .ok place := by
  obtain ⟨value, converted, -⟩ := findByIdKey_eq_ok.mp named
  unfold Datum.json at converted
  cases json : (schema.idDatum id).toJson with
  | error fault =>
      rw [json] at converted
      cases converted
  | ok value =>
      obtain ⟨chars, written⟩ := Datum.entails_chars (schema.idDatum id) value json
      refine ⟨_, entityKey_eq_ok.mpr ⟨String.ofList chars, ?_, rfl⟩⟩
      rw [Datum.render, written]
      rfl

/-- The query for one entity is not the query for all of them. -/
theorem findByIdKey_ne_findAll (named : schema.findByIdKey id = .ok key) :
    key ≠ QueryKey.findAll.encode := by
  obtain ⟨value, -, rfl⟩ := findByIdKey_eq_ok.mp named
  intro same
  have all : QueryKey.findAll.encode.toList = "[\"FindAll\",\x7b\x7d]".toList := by decide +kernel
  have texts := congrArg String.toList same
  rw [QueryKey.toList_encode_findByIdJson, all] at texts
  simp at texts

/-- No two identifiers share the key of their entities or the text of the queries for them. -/
structure Distinct (schema : Schema ι ε) : Prop where
  entityKey_inj : ∀ {id other key}, schema.entityKey id = .ok key →
    schema.entityKey other = .ok key → id = other
  findByIdKey_inj : ∀ {id other key}, schema.findByIdKey id = .ok key →
    schema.findByIdKey other = .ok key → id = other

/-- There is a query for every identifier, and no other identifier has the same keys. -/
structure Names (schema : Schema ι ε) : Prop where
  exists_findByIdKey : ∀ id, ∃ key, schema.findByIdKey id = .ok key
  distinct : schema.Distinct

namespace Names

variable (names : schema.Names)
include names

theorem exists_entityKey (id : ι) : ∃ key, schema.entityKey id = .ok key := by
  obtain ⟨key, named⟩ := names.exists_findByIdKey id
  exact entityKey_of_findByIdKey named

theorem entityKey_inj (first : schema.entityKey id = .ok key)
    (second : schema.entityKey other = .ok key) : id = other :=
  names.distinct.entityKey_inj first second

theorem findByIdKey_inj (first : schema.findByIdKey id = .ok key)
    (second : schema.findByIdKey other = .ok key) : id = other :=
  names.distinct.findByIdKey_inj first second

end Names

end Schema

end QueryCache
