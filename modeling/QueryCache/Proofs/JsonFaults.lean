import QueryCache.Key

/-!
# What keeps a datum from becoming a key

A datum can have any number of faults, at any depth: keys of maps that have no text, integers that
are too wide, and values that refuse to be written. `Datum.faults` lists them in the order of
writing. A datum without faults can be an argument of a query; with faults, the first of them alone
decides how building the key fails. A refusal counts as unwritable, and every fault that the writer
of JSON text detects itself counts as unreadable.
-/

namespace QueryCache

namespace Datum

/-- An integer has to fit into 64 bits, with a sign or without. -/
def integerFaults (value : Int) : List JsonFault :=
  if -(Width.w64.signedLimit : Int) ≤ value ∧ value < Width.w64.limit then [] else [.outOfRange]

/-- A floating-point number that is a key has to be finite. -/
def floatKeyFaults : Decimal.Reading → List JsonFault
  | .finite _ _ => []
  | .infinite _ | .notANumber => [.keyNotFinite]

/-- The fault of a key: it has to be of a kind that has a text. -/
def keyFaults : Datum → List JsonFault
  | .text _ | .char _ | .unitCase _ _ | .bool _ | .unsigned _ _ | .signed _ _ => []
  | .float32 bits => floatKeyFaults (Decimal.readFloat32 bits)
  | .float64 bits => floatKeyFaults (Decimal.readFloat64 bits)
  | .refusal reason => [.refused reason]
  | _ => [.keyNotText]

mutual

/-- The faults of a datum in the order of writing. -/
def faults : Datum → List JsonFault
  | .unsigned _ value => integerFaults value
  | .signed _ value => integerFaults value
  | .present value | .wrapCase _ _ value => faults value
  | .list items | .stream items | .tuple items | .tupleCase _ _ items => itemsFaults items
  | .map entries | .entryStream entries => entriesFaults entries
  | .record fields | .recordCase _ _ fields => fieldsFaults fields
  | .refusal reason => [.refused reason]
  | _ => []

/-- The faults of a sequence. -/
def itemsFaults : List Datum → List JsonFault
  | [] => []
  | item :: items => faults item ++ itemsFaults items

/-- The faults of entries, that of each key before those of its value. -/
def entriesFaults : List (Datum × Datum) → List JsonFault
  | [] => []
  | (key, value) :: entries => keyFaults key ++ (faults value ++ entriesFaults entries)

/-- The faults of named fields. -/
def fieldsFaults : List (String × Datum) → List JsonFault
  | [] => []
  | (_, value) :: fields => faults value ++ fieldsFaults fields

end

/-- A conversion succeeds if there are no faults, and fails as the first of them. -/
def FailsAs {α : Type} (result : Except JsonFault α) (found : List JsonFault) : Prop :=
  ∀ fault, result = .error fault ↔ found.head? = some fault

section FailsAs

variable {α β : Type} {first : Except JsonFault α} {found : List JsonFault}

theorem failsAs_ok (value : α) : FailsAs (.ok value : Except JsonFault α) [] := by
  intro fault
  simp

theorem failsAs_error (fault : JsonFault) :
    FailsAs (.error fault : Except JsonFault α) [fault] := by
  intro other
  simp

/-- The faults of two conversions in a row are those of the first, followed by those of the
second. -/
theorem FailsAs.bind {second : α → Except JsonFault β} {more : List JsonFault}
    (atFirst : FailsAs first found) (atSecond : ∀ value, FailsAs (second value) more) :
    FailsAs (first >>= second) (found ++ more) := by
  cases first with
  | error cause =>
      have earliest : found.head? = some cause := (atFirst cause).mp rfl
      obtain ⟨rest, rfl⟩ := List.head?_eq_some_iff.mp earliest
      intro fault
      simp [Bind.bind, Except.bind]
  | ok value =>
      have none : found = [] := by
        cases found with
        | nil => rfl
        | cons cause rest => cases (atFirst cause).mpr rfl
      subst none
      exact atSecond value

/-- What is made of the value of a conversion has no faults of its own. -/
theorem FailsAs.form (fails : FailsAs first found) (form : α → β) :
    FailsAs (do return form (← first)) found := by
  have formed := fails.bind fun value => failsAs_ok (form value)
  rwa [List.append_nil] at formed

theorem FailsAs.exists_ok (fails : FailsAs first []) : ∃ value, first = .ok value := by
  cases first with
  | error cause => cases (fails cause).mp rfl
  | ok value => exact ⟨value, rfl⟩

theorem FailsAs.eq_error {cause : JsonFault} {rest : List JsonFault}
    (fails : FailsAs first (cause :: rest)) : first = .error cause :=
  (fails cause).mpr rfl

end FailsAs

theorem failsAs_intJson (value : Int) : FailsAs (intJson value) (integerFaults value) := by
  unfold intJson integerFaults
  split
  · exact failsAs_ok _
  · exact failsAs_error _

theorem failsAs_floatKey (range : Decimal.PositionalRange) (reading : Decimal.Reading) :
    FailsAs (floatKey (reading.text? range)) (floatKeyFaults reading) := by
  cases reading with
  | finite negative magnitude => exact failsAs_ok _
  | infinite negative => exact failsAs_error _
  | notANumber => exact failsAs_error _

theorem failsAs_memberName (key : Datum) : FailsAs (memberName key) (keyFaults key) := by
  cases key with
  | float32 bits => exact failsAs_floatKey _ _
  | float64 bits => exact failsAs_floatKey _ _
  | bool value => cases value <;> exact failsAs_ok _
  | text | char | unitCase | unsigned | signed => exact failsAs_ok _
  | _ => exact failsAs_error _

mutual

theorem failsAs_toJson : ∀ datum : Datum, FailsAs datum.toJson datum.faults
  | .unsigned _ value => failsAs_intJson value
  | .signed _ value => failsAs_intJson value
  | .present value => failsAs_toJson value
  | .list items => (failsAs_itemsJson items).form _
  | .stream items => (failsAs_itemsJson items).form _
  | .tuple items => (failsAs_itemsJson items).form _
  | .map entries => (failsAs_entriesJson entries).form _
  | .entryStream entries => (failsAs_entriesJson entries).form _
  | .record fields => (failsAs_fieldsJson fields).form _
  | .wrapCase _ _ content => (failsAs_toJson content).form _
  | .tupleCase _ _ items => (failsAs_itemsJson items).form _
  | .recordCase _ _ fields => (failsAs_fieldsJson fields).form _
  | .refusal _ => failsAs_error _
  | .unit | .bool _ | .float32 _ | .float64 _ | .char _ | .text _ | .bytes _ | .absent
  | .unitCase _ _ => failsAs_ok _

theorem failsAs_itemsJson : ∀ items : List Datum, FailsAs (itemsJson items) (itemsFaults items)
  | [] => failsAs_ok _
  | item :: items =>
      (failsAs_toJson item).bind fun _ => (failsAs_itemsJson items).form _

theorem failsAs_entriesJson : ∀ entries : List (Datum × Datum),
    FailsAs (entriesJson entries) (entriesFaults entries)
  | [] => failsAs_ok _
  | (key, value) :: entries =>
      (failsAs_memberName key).bind fun _ => (failsAs_toJson value).bind fun _ =>
        (failsAs_entriesJson entries).form _

theorem failsAs_fieldsJson : ∀ fields : List (String × Datum),
    FailsAs (fieldsJson fields) (fieldsFaults fields)
  | [] => failsAs_ok _
  | (_, value) :: fields =>
      (failsAs_toJson value).bind fun _ => (failsAs_fieldsJson fields).form _

end

theorem json_of_faults_eq_nil {datum : Datum} (faultless : datum.faults = []) :
    ∃ value, datum.json = .ok value := by
  obtain ⟨value, converted⟩ := (faultless ▸ failsAs_toJson datum).exists_ok
  refine ⟨value, ?_⟩
  rw [json, converted]

theorem json_of_faults_eq_cons {datum : Datum} {cause : JsonFault} {rest : List JsonFault}
    (faulty : datum.faults = cause :: rest) : datum.json = .error cause.error := by
  have failed := (faulty ▸ failsAs_toJson datum).eq_error
  rw [json, failed]

end Datum

namespace QueryKey

/-- What becomes of a key that is built from a datum with the given faults. -/
def BuiltFrom : List Datum.JsonFault → Except Error QueryKey → Prop
  | [], built => ∃ key, built = .ok key
  | .refused reason :: _, built => built = .error (.serialization reason)
  | .keyNotText :: _, built => built = .error (.deserialization "key must be a string")
  | .keyNotFinite :: _, built =>
      built = .error (.deserialization "float key must be finite (got NaN or +/-inf)")
  | .outOfRange :: _, built => built = .error (.deserialization "number out of range")

theorem builtFrom_argument (key : QueryKey) (name : String) (datum : Datum) :
    BuiltFrom datum.faults (key.argument name datum) := by
  rw [argument]
  cases found : datum.faults with
  | nil =>
      obtain ⟨value, converted⟩ := Datum.json_of_faults_eq_nil found
      rw [converted]
      exact ⟨_, rfl⟩
  | cons cause rest =>
      rw [Datum.json_of_faults_eq_cons found]
      cases cause <;> rfl

/-- Building a key succeeds exactly for data without faults. Otherwise it fails as the first fault
in the order of writing: as unwritable if that is a value that refuses to be written, and else as
unreadable, with the text of the fault. There is no other failure. -/
theorem key_fails_as_first_fault (datum : Datum) :
    BuiltFrom datum.faults (findById datum) ∧
      ∀ (key : QueryKey) (name : String), BuiltFrom datum.faults (key.argument name datum) :=
  ⟨builtFrom_argument _ _ _, fun key name => builtFrom_argument key name datum⟩

/-- A map under a key that is no text fails as unreadable, not as unwritable. -/
theorem list_key_fails_as_unreadable :
    (ofOperation "Where").argument "filter" (.map [(.list [.unsigned .w8 1], .unsigned .w8 1)]) =
      .error (.deserialization "key must be a string") :=
  rfl

end QueryKey

end QueryCache
